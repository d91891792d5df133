import Clausal.Decimal.Reading
import Clausal.Decimal.Spelling
import Clausal.Proofs.Decimal.Shortest

/-! # Numbers can be told from their text

Finite numbers with one text are one number, bit by bit (`Binary64.finiteText_injective`).

Without its sign the text is a numeral (`Numeral`): digits with a point, with an exponent or with
both.  A numeral is read back, so that it has one value (`Numeral.unique`), and the value of the
text lies in the interval of the number and in no other (`Binary64.numeral_unsignedText`).  Only the
sign is left, and no numeral starts with it.
-/
namespace Clausal.Decimal

/-! ### Reading a numeral -/

/-- The decimal that a numeral without a sign spells. -/
def readScaled? (cs : List Char) : Option Scaled :=
  match cs.dropWhile Char.isDigit with
  | '.' :: rest =>
    (readExponent? (rest.dropWhile Char.isDigit)).map fun e =>
      ⟨digitsValue (cs.takeWhile Char.isDigit ++ rest.takeWhile Char.isDigit),
        e - (rest.takeWhile Char.isDigit).length⟩
  | rest => (readExponent? rest).map fun e => ⟨digitsValue (cs.takeWhile Char.isDigit), e⟩

/-- All characters are digits. -/
def AllDigits (cs : List Char) : Prop := ∀ c ∈ cs, c.isDigit = true

/-- The text does not start with a digit. -/
def NoDigit (cs : List Char) : Prop := ∀ c ∈ cs.head?, c.isDigit = false

theorem noDigit_nil : NoDigit [] := by
  intro c hc
  cases hc

theorem noDigit_cons {c : Char} (hc : c.isDigit = false) (cs : List Char) : NoDigit (c :: cs) := by
  rintro d ⟨⟩
  exact hc

section
variable {ds whole fraction rest : List Char}

theorem takeWhile_digits (hds : AllDigits ds) (hrest : NoDigit rest) :
    (ds ++ rest).takeWhile Char.isDigit = ds := by
  have hnone : rest.takeWhile Char.isDigit = [] := by
    cases rest with
    | nil => rfl
    | cons c rest => exact List.takeWhile_cons_of_neg (by simp [hrest c rfl])
  rw [List.takeWhile_append_of_pos hds, hnone, List.append_nil]

theorem dropWhile_digits (hds : AllDigits ds) (hrest : NoDigit rest) :
    (ds ++ rest).dropWhile Char.isDigit = rest := by
  rw [List.dropWhile_append_of_pos hds]
  cases rest with
  | nil => rfl
  | cons c rest => exact List.dropWhile_cons_of_neg (by simp [hrest c rfl])

theorem readScaled?_pointed (hwhole : AllDigits whole) (hfraction : AllDigits fraction)
    (hrest : NoDigit rest) :
    readScaled? (whole ++ '.' :: (fraction ++ rest)) =
      (readExponent? rest).map fun e => ⟨digitsValue (whole ++ fraction), e - fraction.length⟩ := by
  have hpoint : NoDigit ('.' :: (fraction ++ rest)) := noDigit_cons rfl _
  unfold readScaled?
  rw [dropWhile_digits hwhole hpoint, takeWhile_digits hwhole hpoint]
  show (readExponent? ((fraction ++ rest).dropWhile Char.isDigit)).map _ = _
  rw [dropWhile_digits hfraction hrest, takeWhile_digits hfraction hrest]

theorem readScaled?_whole (hwhole : AllDigits whole) :
    readScaled? (whole ++ 'e' :: rest) =
      (readExponent? ('e' :: rest)).map fun e => ⟨digitsValue whole, e⟩ := by
  have hmark : NoDigit ('e' :: rest) := noDigit_cons rfl _
  unfold readScaled?
  rw [dropWhile_digits hwhole hmark, takeWhile_digits hwhole hmark]
  rfl

end

/-! ### Digits -/

theorem digitsValue_eq (cs : List Char) : digitsValue cs = Nat.ofDigitChars 10 cs 0 := by
  rw [Nat.ofDigitChars_eq_foldl]
  rfl

theorem digitsValue_toDigits (n : Nat) : digitsValue (Nat.toDigits 10 n) = n := by
  rw [digitsValue_eq, Nat.ofDigitChars_ten_toDigits]

theorem allDigits_toDigits (n : Nat) : AllDigits (Nat.toDigits 10 n) :=
  fun _ hc => Nat.isDigit_of_mem_toDigits (by decide) (by decide) hc

/-- Zeros in front make no difference. -/
theorem digitsValue_zeros_append (n : Nat) (cs : List Char) :
    digitsValue (List.replicate n '0' ++ cs) = digitsValue cs := by
  rw [digitsValue_eq, digitsValue_eq, Nat.ofDigitChars_append, Nat.ofDigitChars_replicate_zero,
    Nat.mul_zero]

/-- Zeros at the end multiply by powers of ten. -/
theorem digitsValue_append_zeros (cs : List Char) (n : Nat) :
    digitsValue (cs ++ List.replicate n '0') = 10 ^ n * digitsValue cs := by
  rw [digitsValue_eq, digitsValue_eq, Nat.ofDigitChars_append, Nat.ofDigitChars_replicate_zero]

theorem allDigits_zeros (n : Nat) : AllDigits (List.replicate n '0') := by
  intro c hc
  rw [List.eq_of_mem_replicate hc]
  rfl

theorem AllDigits.append {cs ds : List Char} (hcs : AllDigits cs) (hds : AllDigits ds) :
    AllDigits (cs ++ ds) := List.forall_mem_append.mpr ⟨hcs, hds⟩

theorem toList_repr (n : Nat) : (Nat.repr n).toList = Nat.toDigits 10 n := by
  rw [Nat.repr_eq_ofList_toDigits, String.toList_ofList]

theorem toList_zeros (n : Nat) : (zeros n).toList = List.replicate n '0' := String.toList_ofList

/-! ### Exponents -/

theorem takeSign_digits {cs : List Char} (hcs : AllDigits cs) : takeSign cs = (false, cs) := by
  unfold takeSign
  split
  · exact absurd (hcs '-' List.mem_cons_self) (by decide)
  · exact absurd (hcs '+' List.mem_cons_self) (by decide)
  · rfl

theorem readExponent?_of_takeSign {cs : List Char} {minus : Bool} {n : Nat}
    (h : takeSign cs = (minus, Nat.toDigits 10 n)) :
    readExponent? ('e' :: cs) = some (if minus then -(n : Int) else n) := by
  have hall : (Nat.toDigits 10 n).all Char.isDigit = true :=
    List.all_eq_true.mpr (allDigits_toDigits n)
  have hne : (Nat.toDigits 10 n).isEmpty = false := by simp
  rw [readExponent?, if_pos (.inl rfl), h]
  simp only [hall, hne, digitsValue_toDigits]
  rfl

/-- The exponent of a number as it is written. -/
def exponentChars (power : Int) : List Char :=
  if power < 0 then '-' :: Nat.toDigits 10 (-power).toNat else Nat.toDigits 10 power.toNat

theorem readExponent?_exponentChars (power : Int) :
    readExponent? ('e' :: exponentChars power) = some power := by
  unfold exponentChars
  split
  · have hsign : takeSign ('-' :: Nat.toDigits 10 (-power).toNat) =
        (true, Nat.toDigits 10 (-power).toNat) := rfl
    rw [readExponent?_of_takeSign hsign, if_pos rfl, Option.some.injEq]
    omega
  · have hsign := takeSign_digits (allDigits_toDigits power.toNat)
    rw [readExponent?_of_takeSign hsign, if_neg Bool.false_ne_true, Option.some.injEq]
    omega

/-- On its own an integer is written as in an exponent. -/
theorem toList_toString (n : Int) : (toString n).toList = exponentChars n := by
  cases n with
  | ofNat n => exact toList_repr n
  | negSucc n =>
    have htext : toString (Int.negSucc n) = "-" ++ Nat.repr (n + 1) := rfl
    rw [htext, String.toList_append, toList_repr, exponentChars, if_pos (Int.negSucc_lt_zero n)]
    rfl

theorem toString_int_injective {m n : Int} (h : toString m = toString n) : m = n := by
  have hread := readExponent?_exponentChars m
  rw [← toList_toString, h, toList_toString, readExponent?_exponentChars] at hread
  exact (Option.some.inj hread).symm

/-! ### Numerals -/

/-- Texts that spell a number: digits with a point, with an exponent or with both. -/
inductive Numeral : List Char → ℚ → Prop
  | pointed {whole fraction : List Char} (hwhole : AllDigits whole)
      (hfraction : AllDigits fraction) :
      Numeral (whole ++ '.' :: fraction)
        (digitsValue (whole ++ fraction) * 10 ^ (-(fraction.length : Int)))
  | scaled {whole : List Char} (hwhole : AllDigits whole) (power : Int) :
      Numeral (whole ++ 'e' :: exponentChars power) (digitsValue whole * 10 ^ power)
  | pointedScaled {whole fraction : List Char} (hwhole : AllDigits whole)
      (hfraction : AllDigits fraction) (power : Int) :
      Numeral (whole ++ '.' :: (fraction ++ 'e' :: exponentChars power))
        (digitsValue (whole ++ fraction) * 10 ^ (power - fraction.length))

namespace Numeral
variable {cs : List Char} {v w : ℚ}

/-- **Numerals are read back.** -/
theorem read (h : Numeral cs v) : ∃ d, readScaled? cs = some d ∧ d.value = v := by
  cases h with
  | @pointed whole fraction hwhole hfraction =>
    refine ⟨⟨digitsValue (whole ++ fraction), -(fraction.length : Int)⟩, ?_, rfl⟩
    have hread := readScaled?_pointed hwhole hfraction noDigit_nil
    rwa [List.append_nil, readExponent?, Option.map_some, zero_sub] at hread
  | @scaled whole hwhole power =>
    refine ⟨⟨digitsValue whole, power⟩, ?_, rfl⟩
    rw [readScaled?_whole hwhole, readExponent?_exponentChars, Option.map_some]
  | @pointedScaled whole fraction hwhole hfraction power =>
    refine ⟨⟨digitsValue (whole ++ fraction), power - fraction.length⟩, ?_, rfl⟩
    have hmark : NoDigit ('e' :: exponentChars power) := noDigit_cons rfl _
    rw [readScaled?_pointed hwhole hfraction hmark, readExponent?_exponentChars, Option.map_some]

theorem unique (hv : Numeral cs v) (hw : Numeral cs w) : v = w := by
  obtain ⟨d, hd, rfl⟩ := hv.read
  obtain ⟨e, he, rfl⟩ := hw.read
  rw [Option.some.inj (hd.symm.trans he)]

theorem ne_minus (h : Numeral cs v) (ds : List Char) : cs ≠ '-' :: ds := by
  rintro rfl
  obtain ⟨d, hd, -⟩ := h.read
  cases hd

/-- A sign in front of a numeral can be told from the numeral. -/
theorem signed_inj {ds : List Char} (hcs : Numeral cs v) (hds : Numeral ds w) {a b : Bool}
    (h : (if a then "-" else "").toList ++ cs = (if b then "-" else "").toList ++ ds) :
    a = b ∧ cs = ds := by
  cases a <;> cases b
  · exact ⟨rfl, h⟩
  · exact absurd h (hcs.ne_minus ds)
  · exact absurd h.symm (hds.ne_minus cs)
  · exact ⟨rfl, List.append_cancel_left h⟩

/-- A numeral has a point or an exponent. -/
theorem exists_mark (h : Numeral cs v) : ∃ c ∈ cs, c = '.' ∨ c = 'e' := by
  cases h with
  | pointed => exact ⟨'.', by simp, .inl rfl⟩
  | scaled => exact ⟨'e', by simp, .inr rfl⟩
  | pointedScaled => exact ⟨'.', by simp, .inl rfl⟩

end Numeral

/-- The characters of numbers: digits, the minus, the point and the mark of an exponent. -/
def NumberChar (c : Char) : Prop := c.isDigit = true ∨ c = '-' ∨ c = '.' ∨ c = 'e'

instance (c : Char) : Decidable (NumberChar c) := inferInstanceAs (Decidable (_ ∨ _))

theorem AllDigits.numberChars {cs : List Char} (h : AllDigits cs) : ∀ c ∈ cs, NumberChar c :=
  fun c hc => .inl (h c hc)

theorem numberChars_exponent (power : Int) : ∀ c ∈ exponentChars power, NumberChar c := by
  unfold exponentChars
  split
  · exact List.forall_mem_cons.mpr ⟨.inr (.inl rfl), (allDigits_toDigits _).numberChars⟩
  · exact (allDigits_toDigits _).numberChars

theorem Numeral.numberChars {cs : List Char} {v : ℚ} (h : Numeral cs v) :
    ∀ c ∈ cs, NumberChar c := by
  have hpoint : NumberChar '.' := .inr (.inr (.inl rfl))
  have hmark : NumberChar 'e' := .inr (.inr (.inr rfl))
  have hexponent (power : Int) := List.forall_mem_cons.mpr ⟨hmark, numberChars_exponent power⟩
  cases h with
  | pointed hwhole hfraction =>
    have htail := List.forall_mem_cons.mpr ⟨hpoint, hfraction.numberChars⟩
    exact List.forall_mem_append.mpr ⟨hwhole.numberChars, htail⟩
  | scaled hwhole power =>
    exact List.forall_mem_append.mpr ⟨hwhole.numberChars, hexponent power⟩
  | pointedScaled hwhole hfraction power =>
    have htail := List.forall_mem_append.mpr ⟨hfraction.numberChars, hexponent power⟩
    exact List.forall_mem_append.mpr ⟨hwhole.numberChars, List.forall_mem_cons.mpr ⟨hpoint, htail⟩⟩

/-! ### The text of a number is a numeral -/

/-- **A decimal in full is a numeral.**  The point stands after as many of the digits. -/
theorem numeral_plainText {digits : List Char} (hdigits : AllDigits digits) (point : Int) :
    Numeral (plainText digits point).toList
      (digitsValue digits * 10 ^ (point - digits.length)) := by
  unfold plainText
  split
  · rename_i hpoint
    -- Nothing but zeros before the digits.
    have htext : ("0." ++ zeros (-point).toNat ++ String.ofList digits).toList =
        List.replicate 1 '0' ++ '.' :: (List.replicate (-point).toNat '0' ++ digits) := by
      simp [toList_zeros]
    have hnumeral := Numeral.pointed (allDigits_zeros 1)
      ((allDigits_zeros (-point).toNat).append hdigits)
    have hscale : point - digits.length =
        -((List.replicate (-point).toNat '0' ++ digits).length : Int) := by
      rw [List.length_append, List.length_replicate]
      omega
    rwa [digitsValue_zeros_append, digitsValue_zeros_append, ← htext, ← hscale] at hnumeral
  · rename_i hpoint
    obtain ⟨p, rfl⟩ : ∃ p : Nat, point = p := ⟨point.toNat, by omega⟩
    rw [Int.toNat_natCast]
    dsimp only
    split
    · rename_i hend
      -- The digits end before the point, and zeros fill the rest.
      have hlength : digits.length ≤ p := by
        rwa [List.isEmpty_iff, List.drop_eq_nil_iff] at hend
      have htext :
          (String.ofList (digits.take p) ++ zeros (p - digits.length) ++ "." ++ "0").toList =
          (digits ++ List.replicate (p - digits.length) '0') ++ '.' :: List.replicate 1 '0' := by
        simp [toList_zeros, List.take_of_length_le hlength]
      have hnumeral := Numeral.pointed (hdigits.append (allDigits_zeros (p - digits.length)))
        (allDigits_zeros 1)
      have hscale : (10 : ℚ) ^ ((p : Int) - digits.length) = 10 ^ (p - digits.length) := by
        rw [← zpow_natCast, Nat.cast_sub hlength]
      have hvalue : ((10 ^ 1 * (10 ^ (p - digits.length) * digitsValue digits) : Nat) : ℚ) *
          10 ^ (-((List.replicate 1 '0').length : Int)) =
            digitsValue digits * 10 ^ ((p : Int) - digits.length) := by
        rw [hscale, List.length_replicate]
        push_cast
        norm_num
        ring
      rwa [digitsValue_append_zeros, digitsValue_append_zeros, ← htext, hvalue] at hnumeral
    · rename_i hmore
      -- The point stands among the digits.
      have hlength : p < digits.length := by
        rwa [List.isEmpty_iff, List.drop_eq_nil_iff, not_le] at hmore
      have hzeros : p - digits.length = 0 := by omega
      have htext : (String.ofList (digits.take p) ++ zeros (p - digits.length) ++ "." ++
          String.ofList (digits.drop p)).toList = digits.take p ++ '.' :: digits.drop p := by
        simp [toList_zeros, hzeros]
      have htake : AllDigits (digits.take p) := fun c hc => hdigits c (List.mem_of_mem_take hc)
      have hdrop : AllDigits (digits.drop p) := fun c hc => hdigits c (List.mem_of_mem_drop hc)
      have hnumeral := Numeral.pointed htake hdrop
      have hscale : (p : Int) - digits.length = -((digits.drop p).length : Int) := by
        rw [List.length_drop]
        omega
      rwa [List.take_append_drop, ← htext, ← hscale] at hnumeral

theorem toList_scientificText (c : Char) (cs : List Char) (power : Int) :
    (scientificText .readable (c :: cs) power).toList =
      (if cs.isEmpty then [c] else c :: '.' :: cs) ++ 'e' :: exponentChars power := by
  unfold scientificText exponentChars
  cases cs <;> by_cases hpower : power < 0 <;> simp [hpower, Style.readable]

/-- **A decimal with an exponent is a numeral.** -/
theorem numeral_scientificText {digits : List Char} (hdigits : AllDigits digits) (hne : digits ≠ [])
    (power : Int) : Numeral (scientificText .readable digits power).toList
      (digitsValue digits * 10 ^ (power + 1 - digits.length)) := by
  obtain ⟨c, cs, rfl⟩ := List.exists_cons_of_ne_nil hne
  rw [toList_scientificText]
  cases cs with
  | nil =>
    have hscale : power + 1 - ([c].length : Int) = power := add_sub_cancel_right power 1
    rw [hscale]
    exact Numeral.scaled hdigits power
  | cons c' cs =>
    have hc : AllDigits [c] := List.forall_mem_singleton.mpr (hdigits c List.mem_cons_self)
    have hcs : AllDigits (c' :: cs) := fun d hd => hdigits d (List.mem_cons_of_mem c hd)
    have hscale : power + 1 - ((c :: c' :: cs).length : Int) = power - (c' :: cs).length := by
      rw [List.length_cons]
      omega
    rw [hscale]
    exact Numeral.pointedScaled hc hcs power

/-! ### Numbers and their texts -/

/-- The text of a finite number without its sign. -/
def Style.unsignedText (style : Style) (x : Binary64) : String :=
  if x.significand = 0 then "0.0"
  else
    let d := x.shortest style.tie
    let digits := Nat.toDigits 10 d.digits
    let power := d.scale + digits.length - 1
    if style.leastPlain ≤ power ∧ power < style.plainEnd then plainText digits (power + 1)
    else scientificText style digits power

theorem Style.finiteText_eq (style : Style) (x : Binary64) :
    style.finiteText x = (if x.isNegative then "-" else "") ++ style.unsignedText x := by
  unfold finiteText unsignedText
  dsimp only
  rw [sub_add_cancel, ← apply_ite]

namespace Binary64

/-- The value spells the number up to its sign. -/
def SpelledBy (x : Binary64) (v : ℚ) : Prop :=
  if x.significand = 0 then v = 0 else x.interval.Holds v

/-- **The text of a number is a numeral, and its value spells the number.** -/
theorem numeral_unsignedText (x : Binary64) :
    ∃ v, Numeral (Style.readable.unsignedText x).toList v ∧ x.SpelledBy v := by
  unfold Style.unsignedText SpelledBy
  split
  · have hnumeral := Numeral.pointed (allDigits_zeros 1) (allDigits_zeros 1)
    rw [digitsValue_append_zeros] at hnumeral
    exact ⟨_, hnumeral, by simp [digitsValue]⟩
  · rename_i hx
    refine ⟨_, ?_, holds_shortest hx Style.readable.tie⟩
    let d := x.shortest Style.readable.tie
    let digits := Nat.toDigits 10 d.digits
    have hdigits : AllDigits digits := allDigits_toDigits d.digits
    have hscale : d.scale + digits.length - 1 + 1 - digits.length = d.scale := by omega
    have hvalue : digitsValue digits * 10 ^ (d.scale + digits.length - 1 + 1 - digits.length) =
        d.value := by
      rw [hscale, digitsValue_toDigits]
      rfl
    dsimp only
    rw [← hvalue]
    split
    · exact numeral_plainText hdigits _
    · exact numeral_scientificText hdigits Nat.toDigits_ne_nil _

theorem fields_eq_zero {x : Binary64} (h : x.significand = 0) :
    x.exponentField = 0 ∧ x.fractionField = 0 := by
  unfold significand at h
  split at h
  · rename_i hexponent
    exact ⟨hexponent, h⟩
  · have hpow : 0 < Nat.pow 2 52 := Nat.pow_pos (by decide)
    omega

theorem SpelledBy.fields_eq {x y : Binary64} {v : ℚ} (hx : x.SpelledBy v) (hy : y.SpelledBy v) :
    x.exponentField = y.exponentField ∧ x.fractionField = y.fractionField := by
  unfold SpelledBy at hx hy
  split at hx <;> split at hy
  · rename_i hx0 hy0
    obtain ⟨he, hf⟩ := fields_eq_zero hx0
    obtain ⟨he', hf'⟩ := fields_eq_zero hy0
    exact ⟨he.trans he'.symm, hf.trans hf'.symm⟩
  · rename_i hy0
    exact absurd hx (pos_of_holds hy0 hy).ne'
  · rename_i hx0 _
    exact absurd hy (pos_of_holds hx0 hx).ne'
  · exact fields_eq_of_holds hx hy

theorem isNegative_eq (x : Binary64) :
    x.isNegative = decide (x.bits.toNat / 9223372036854775808 = 1) := by
  have hshift : (x.bits >>> 63).toNat = x.bits.toNat / 9223372036854775808 := by
    rw [UInt64.toNat_shiftRight]
    exact Nat.shiftRight_eq_div_pow _ 63
  unfold isNegative
  rw [beq_eq_decide, ← hshift, decide_eq_decide, ← UInt64.toNat_inj]
  rfl

/-- Sign, exponent and fraction are all the bits there are. -/
theorem ext_fields {x y : Binary64} (hsign : x.isNegative = y.isNegative)
    (hexponent : x.exponentField = y.exponentField)
    (hfraction : x.fractionField = y.fractionField) :
    x = y := by
  rw [isNegative_eq, isNegative_eq, decide_eq_decide] at hsign
  rw [exponentField_eq, exponentField_eq] at hexponent
  rw [fractionField_eq, fractionField_eq] at hfraction
  have hx := x.bits.toNat_lt
  have hy := y.bits.toNat_lt
  have hbits : x.bits.toNat = y.bits.toNat := by omega
  rw [UInt64.toNat_inj] at hbits
  exact congrArg Binary64.mk hbits

theorem numberChars_finiteText (x : Binary64) :
    ∀ c ∈ (Style.readable.finiteText x).toList, NumberChar c := by
  obtain ⟨v, hv, -⟩ := x.numeral_unsignedText
  rw [Style.finiteText_eq, String.toList_append, List.forall_mem_append]
  refine ⟨?_, hv.numberChars⟩
  split
  · exact List.forall_mem_singleton.mpr (.inr (.inl rfl))
  · exact nofun

theorem exists_mark_finiteText (x : Binary64) :
    ∃ c ∈ (Style.readable.finiteText x).toList, c = '.' ∨ c = 'e' := by
  obtain ⟨v, hv, -⟩ := x.numeral_unsignedText
  obtain ⟨c, hc, hmark⟩ := hv.exists_mark
  refine ⟨c, ?_, hmark⟩
  rw [Style.finiteText_eq, String.toList_append]
  exact List.mem_append_right _ hc

/-- **Finite numbers with one text are one number**, bit by bit. -/
theorem finiteText_injective : Function.Injective Style.readable.finiteText := by
  intro x y h
  obtain ⟨v, hv, hx⟩ := numeral_unsignedText x
  obtain ⟨w, hw, hy⟩ := numeral_unsignedText y
  have htext := congrArg String.toList h
  rw [Style.finiteText_eq, Style.finiteText_eq, String.toList_append, String.toList_append] at htext
  obtain ⟨hsign, hunsigned⟩ := hv.signed_inj hw htext
  rw [hunsigned] at hv
  rw [hv.unique hw] at hx
  obtain ⟨hexponent, hfraction⟩ := hx.fields_eq hy
  exact ext_fields hsign hexponent hfraction

end Binary64

end Clausal.Decimal
