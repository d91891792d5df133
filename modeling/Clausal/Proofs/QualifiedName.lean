import Clausal.Name

/-! # Qualified names can be read back

A qualified name is written as tokens with dots between them: a star, a word, or
an identifier in delimiters with the closing one doubled inside.  A scanner that
goes from left to right and looks at one character at a time finds these tokens
again (`NameToken.read_written`), whatever characters the name has: inside
delimiters a dot is a character like any other, and only a closing delimiter that
is not doubled ends the token.

So no name can end its delimiters early, and the parts of a name can be told from
the text (`NameStyle.entity_read_back`).
-/
namespace Clausal

/-- A token of a qualified name. -/
inductive NameToken where
  | star
  | word (s : String)
  /-- An identifier in delimiters; the text is what stands for it without them. -/
  | delimited (s : String)
deriving DecidableEq

namespace NameToken

/-- The part of a name that the token stands for. -/
def content : NameToken → String
  | .star => "*"
  | .word s => s
  | .delimited s => s

/-- How the token is written between these delimiters. -/
def text (opening closing : Char) : NameToken → String
  | .star => "*"
  | .word s => s
  | .delimited s => delimit opening closing s

/-- A word is not empty and has only letters, digits and underscores. -/
def Valid : NameToken → Prop
  | .word s => isPlainName s = true
  | _ => True

end NameToken

/-- What a word consists of. -/
def isWordChar (c : Char) : Bool := c.isAlphanum || c = '_'

/-- Where in a token the scanner stands. -/
inductive Scan where
  /-- Before a token. -/
  | start
  /-- After a star. -/
  | star
  /-- In a word, after these characters. -/
  | word (seen : List Char)
  /-- Between delimiters, after these characters. -/
  | inside (seen : List Char)
  /-- After a closing delimiter, which counts as a character if another one follows. -/
  | closed (seen : List Char)

namespace Scan

/-- The token that ends here, if one can. -/
def token? : Scan → Option NameToken
  | .start => none
  | .star => some .star
  | .word seen => some (.word (String.ofList seen))
  | .inside _ => none
  | .closed seen => some (.delimited (String.ofList seen))

/-- Where the scanner stands after one more character of the same token. -/
def step? (opening closing : Char) (ch : Char) : Scan → Option Scan
  | .start =>
    if ch = opening then some (.inside [])
    else if ch = '*' then some .star
    else if isWordChar ch then some (.word [ch])
    else none
  | .star => none
  | .word seen => if isWordChar ch then some (.word (seen ++ [ch])) else none
  | .inside seen => if ch = closing then some (.closed seen) else some (.inside (seen ++ [ch]))
  | .closed seen => if ch = closing then some (.inside (seen ++ [ch])) else none

/-- The tokens that are read from here on.  A dot ends a token where the token cannot go on. -/
def run (opening closing : Char) : Scan → List Char → Option (List NameToken)
  | here, [] => here.token?.map ([·])
  | here, ch :: rest =>
    match here.step? opening closing ch with
    | some next => run opening closing next rest
    | none =>
      match here.token? with
      | some token => if ch = '.' then (run opening closing .start rest).map (token :: ·) else none
      | none => none

end Scan

/-- The tokens of a qualified name, read from left to right. -/
def readName (opening closing : Char) (s : String) : Option (List NameToken) :=
  Scan.run opening closing .start s.toList

/-- Delimiters that cannot be taken for anything else in a qualified name. -/
structure Delimiters (opening closing : Char) : Prop where
  notStar : opening ≠ '*'
  notWord : isWordChar opening = false
  notDot : closing ≠ '.'

section Scanning
variable {opening closing : Char}

/-- What follows a token: nothing, or a dot. -/
def EndsToken (rest : List Char) : Prop := rest = [] ∨ ∃ tail, rest = '.' :: tail

namespace Scan

/-- What is read once a token has ended. -/
def resume (opening closing : Char) (token : NameToken) : List Char → Option (List NameToken)
  | [] => some [token]
  | _ :: rest => (run opening closing .start rest).map (token :: ·)

/-- A token ends at a dot that it cannot take in, and at the end of the text. -/
theorem run_of_endsToken {here : Scan} {token : NameToken} {rest : List Char}
    (htoken : here.token? = some token) (hdot : here.step? opening closing '.' = none)
    (hrest : EndsToken rest) :
    run opening closing here rest = resume opening closing token rest := by
  rcases hrest with rfl | ⟨tail, rfl⟩
  · simp [run, resume, htoken]
  · simp [run, resume, htoken, hdot]

/-- Characters of a word are taken in one by one. -/
theorem run_word (seen cs : List Char) (hcs : ∀ c ∈ cs, isWordChar c = true) {rest : List Char}
    (hrest : EndsToken rest) :
    run opening closing (.word seen) (cs ++ rest) =
      resume opening closing (.word (String.ofList (seen ++ cs))) rest := by
  induction cs generalizing seen with
  | nil =>
    rw [List.append_nil]
    have hend : step? opening closing '.' (.word seen) = none := by
      simp [step?, isWordChar]
    exact run_of_endsToken rfl hend hrest
  | cons c cs ih =>
    have hc := hcs c List.mem_cons_self
    have hstep : step? opening closing c (.word seen) = some (.word (seen ++ [c])) := by
      simp [step?, hc]
    rw [List.cons_append, run, hstep]
    have htail := ih (seen ++ [c]) fun x hx => hcs x (List.mem_cons_of_mem c hx)
    simpa [List.append_assoc] using htail

/-- **Doubling is undone inside delimiters**, and the closing delimiter ends the token. -/
theorem run_inside (hdot : closing ≠ '.') (seen cs : List Char) {rest : List Char}
    (hrest : EndsToken rest) :
    run opening closing (.inside seen) (Text.double closing cs ++ closing :: rest) =
      resume opening closing (.delimited (String.ofList (seen ++ cs))) rest := by
  induction cs generalizing seen with
  | nil =>
    have hend : step? opening closing '.' (.closed seen) = none := by
      simp [step?, Ne.symm hdot]
    have hclose : step? opening closing closing (.inside seen) = some (.closed seen) := by
      simp [step?]
    rw [Text.double, List.nil_append, run, hclose, List.append_nil]
    exact run_of_endsToken rfl hend hrest
  | cons c cs ih =>
    have htail := ih (seen ++ [c])
    rw [List.append_assoc, List.singleton_append] at htail
    by_cases hc : c = closing
    · subst hc
      -- Two closing delimiters in a row: the first one closes, the second one opens again.
      simpa [Text.double, run, step?] using htail
    · simpa [Text.double, run, step?, hc] using htail

end Scan

namespace NameToken

/-- A token that is followed by nothing or by a dot is read as it was written. -/
theorem run_text (hd : Delimiters opening closing) {t : NameToken} (ht : t.Valid)
    {rest : List Char} (hrest : EndsToken rest) :
    Scan.run opening closing .start ((t.text opening closing).toList ++ rest) =
      Scan.resume opening closing t rest := by
  cases t with
  | star =>
    have hstep : Scan.step? opening closing '*' .start = some .star := by
      simp [Scan.step?, Ne.symm hd.notStar]
    have htext : (text opening closing .star).toList ++ rest = '*' :: rest := by
      simp [text]
    rw [htext, Scan.run, hstep]
    exact Scan.run_of_endsToken rfl rfl hrest
  | word s =>
    simp only [Valid, isPlainName, Bool.and_eq_true, Bool.not_eq_true', List.all_eq_true] at ht
    obtain ⟨hne, hchars⟩ := ht
    have hword : ∀ c ∈ s.toList, isWordChar c = true := hchars
    cases hs : s.toList with
    | nil =>
      have hempty : s = "" := String.toList_eq_nil_iff.mp hs
      simp [hempty] at hne
    | cons c cs =>
      rw [hs] at hword
      have hc : isWordChar c = true := hword c List.mem_cons_self
      have hopening : c ≠ opening := by
        rintro rfl
        rw [hd.notWord] at hc
        cases hc
      have hstar : c ≠ '*' := by
        rintro rfl
        cases hc
      have hstep : Scan.step? opening closing c .start = some (.word [c]) := by
        simp [Scan.step?, hopening, hstar, hc]
      have hs' : s = String.ofList ([c] ++ cs) := by
        rw [List.singleton_append, ← hs, String.ofList_toList]
      have htext : (text opening closing (.word s)).toList ++ rest = c :: (cs ++ rest) := by
        simp [text, hs]
      rw [htext, Scan.run, hstep]
      have hrun : Scan.run opening closing (.word [c]) (cs ++ rest) = _ :=
        Scan.run_word [c] cs (fun x hx => hword x (List.mem_cons_of_mem c hx)) hrest
      rw [← hs'] at hrun
      exact hrun
  | delimited s =>
    have hstep : Scan.step? opening closing opening .start = some (.inside []) := by
      simp [Scan.step?]
    have htext : (text opening closing (.delimited s)).toList ++ rest =
        opening :: (Text.double closing s.toList ++ closing :: rest) := by
      simp [text, delimit]
    rw [htext, Scan.run, hstep]
    have hrun : Scan.run opening closing _ _ = _ :=
      Scan.run_inside hd.notDot [] s.toList hrest
    rw [List.nil_append, String.ofList_toList] at hrun
    exact hrun

/-- **Tokens with dots between them are read as they were written.** -/
theorem read_written (hd : Delimiters opening closing) {ts : List NameToken} (hne : ts ≠ [])
    (hts : ∀ t ∈ ts, t.Valid) :
    readName opening closing (String.intercalate "." (ts.map (text opening closing))) =
      some ts := by
  induction ts with
  | nil => exact absurd rfl hne
  | cons t ts ih =>
    have ht := hts t List.mem_cons_self
    cases ts with
    | nil =>
      have hrun := run_text hd ht (.inl rfl)
      rw [List.append_nil] at hrun
      simpa [readName, Scan.resume] using hrun
    | cons u us =>
      have hrest := ih (List.cons_ne_nil u us) fun x hx => hts x (List.mem_cons_of_mem t hx)
      have htext : (String.intercalate "." ((t :: u :: us).map (text opening closing))).toList =
          (t.text opening closing).toList ++
            '.' :: (String.intercalate "." ((u :: us).map (text opening closing))).toList := by
        simp
      rw [readName, htext, run_text hd ht (.inr ⟨_, rfl⟩), Scan.resume]
      rw [readName] at hrest
      rw [hrest]
      rfl

end NameToken
end Scanning

/-! ### Names in a dialect -/

namespace Dialect

/-- The built-in dialects with their delimiters. -/
def delimiters : List (Dialect × Char × Char) :=
  [(ansi, '\x22', '\x22'), (mysql, '\x60', '\x60'), (sqlserver, '[', ']'),
    (oracle, '\x22', '\x22')]

theorem quote_of_delimiters {d : Dialect} {opening closing : Char}
    (h : (d, opening, closing) ∈ delimiters) : d.quote = delimit opening closing := by
  simp only [delimiters, List.mem_cons, Prod.mk.injEq, List.not_mem_nil, or_false] at h
  rcases h with ⟨rfl, rfl, rfl⟩ | ⟨rfl, rfl, rfl⟩ | ⟨rfl, rfl, rfl⟩ | ⟨rfl, rfl, rfl⟩ <;> rfl

theorem delimiters_clear {d : Dialect} {opening closing : Char}
    (h : (d, opening, closing) ∈ delimiters) : Delimiters opening closing := by
  simp only [delimiters, List.mem_cons, Prod.mk.injEq, List.not_mem_nil, or_false] at h
  rcases h with ⟨-, rfl, rfl⟩ | ⟨-, rfl, rfl⟩ | ⟨-, rfl, rfl⟩ | ⟨-, rfl, rfl⟩ <;>
    exact ⟨by decide, by decide, by decide⟩

end Dialect

theorem nameParts_ne_nil (name : String) : nameParts name ≠ [] := by
  have hsplit : ∀ s, Text.split '.' s ≠ [] := by
    intro s
    simp only [Text.split, ne_eq, List.map_eq_nil_iff]
    cases s.toList with
    | nil => simp [Text.pieces]
    | cons c cs =>
      unfold Text.pieces
      split
      · simp
      · split <;> simp
  unfold nameParts
  split
  · dsimp only
    split <;> simp
  · dsimp only
    split
    · exact hsplit name
    · simp

namespace NameStyle
variable (style : NameStyle)

/-- What is written for a part: the part itself where names are quoted as they are, else the
part with underscores for dashes. -/
def rewritten (s : String) : String :=
  if style.quoted && !style.quotedSnake then s else snake s

/-- The token for one part of a name. -/
def token (s : String) : NameToken :=
  if s = "*" then .star
  else if style.quoted || !isPlainName (snake s) then .delimited (style.rewritten s)
  else .word (snake s)

theorem token_valid (s : String) : (style.token s).Valid := by
  unfold token
  split
  · trivial
  · split
    · trivial
    · rename_i h
      simp only [Bool.or_eq_true, Bool.not_eq_true', not_or] at h
      simpa [NameToken.Valid] using h.2

theorem content_token (s : String) : (style.token s).content = style.rewritten s := by
  unfold token
  split
  · rename_i hs
    subst hs
    have hsnake : snake "*" = "*" := by decide +kernel
    simp [NameToken.content, rewritten, hsnake]
  · split
    · rfl
    · rename_i h
      simp only [Bool.or_eq_true, not_or] at h
      simp [NameToken.content, rewritten, h.1]

theorem text_token {opening closing : Char} (h : style.dialect.quote = delimit opening closing)
    (s : String) : (style.token s).text opening closing = style.part s := by
  unfold token part
  rw [h]
  split
  · rename_i hs
    rw [hs]
    rfl
  · cases hq : style.quoted with
    | true => cases hsnake : style.quotedSnake <;> simp [NameToken.text, rewritten, hq, hsnake]
    | false =>
      cases hplain : isPlainName (snake s) <;> simp [NameToken.text, rewritten, hq]

/-- The text is tokens with dots between them, the scanner finds these tokens, and they stand for
the parts in their order. -/
structure ReadsAs (opening closing : Char) (text : String) (parts : List String)
    (tokens : List NameToken) : Prop where
  valid : ∀ t ∈ tokens, t.Valid
  written : text = String.intercalate "." (tokens.map (NameToken.text opening closing))
  read : readName opening closing text = some tokens
  contents : tokens.map NameToken.content = parts

theorem readsAs_tokens {opening closing : Char} (hd : Delimiters opening closing)
    (hquote : style.dialect.quote = delimit opening closing) {parts : List String}
    (hparts : parts ≠ []) :
    ReadsAs opening closing (String.intercalate "." (parts.map style.part))
      (parts.map style.rewritten) (parts.map style.token) := by
  have hvalid : ∀ t ∈ parts.map style.token, t.Valid := by
    intro t ht
    obtain ⟨s, -, rfl⟩ := List.mem_map.mp ht
    exact style.token_valid s
  have htext : parts.map style.part =
      (parts.map style.token).map (NameToken.text opening closing) := by
    rw [List.map_map]
    exact List.map_congr_left fun s _ => (style.text_token hquote s).symm
  refine ⟨hvalid, by rw [htext], ?_, ?_⟩
  · rw [htext]
    exact NameToken.read_written hd (by simpa using hparts) hvalid
  · rw [List.map_map]
    exact List.map_congr_left fun s _ => style.content_token s

/-- **A qualified name can be read back**, whatever characters it has.  Under every built-in dialect
it is written as stars, words and delimited identifiers with dots between them, from which its
parts can be read again: unchanged where names are quoted as they are, else with underscores for
dashes.  An alias is written as the one part that it is. -/
theorem entity_read_back :
    Dialect.delimiters.map Prod.fst = Dialect.builtin ∧
    ∀ d opening closing, (d, opening, closing) ∈ Dialect.delimiters →
      ∀ (quoted quotedSnake : Bool) (name : String),
        let style : NameStyle := ⟨d, quoted, quotedSnake⟩
        (∃ tokens, ReadsAs opening closing (style.entity name)
          ((nameParts name).map style.rewritten) tokens) ∧
        ∃ token, ReadsAs opening closing (style.aliasText name) [style.rewritten name] [token] := by
  refine ⟨rfl, fun d opening closing hmem quoted quotedSnake name => ?_⟩
  intro style
  have hreads : ∀ parts, parts ≠ [] → ReadsAs opening closing
      (String.intercalate "." (parts.map style.part)) (parts.map style.rewritten)
      (parts.map style.token) := fun parts =>
    style.readsAs_tokens (Dialect.delimiters_clear hmem) (Dialect.quote_of_delimiters hmem)
  refine ⟨⟨_, hreads _ (nameParts_ne_nil name)⟩, style.token name, ?_⟩
  have halias := hreads [name] (List.cons_ne_nil name [])
  rwa [List.map_singleton, String.intercalate_singleton] at halias

/-- A name with a closing delimiter in its first part and a dash in its second one. -/
theorem entity_read_back_brackets :
    (Dialect.sqlserver, '[', ']') ∈ Dialect.delimiters ∧
    ∃ tokens, ReadsAs '[' ']' (entity ⟨Dialect.sqlserver, true, false⟩ "a]b.x-y")
      ["a]b", "x-y"] tokens := by
  have hmem : (Dialect.sqlserver, '[', ']') ∈ Dialect.delimiters := by simp [Dialect.delimiters]
  have hparts : (nameParts "a]b.x-y").map (rewritten ⟨Dialect.sqlserver, true, false⟩) =
      ["a]b", "x-y"] := by decide +kernel
  have h := (entity_read_back.2 _ _ _ hmem true false "a]b.x-y").1
  rw [hparts] at h
  exact ⟨hmem, h⟩

end NameStyle
end Clausal
