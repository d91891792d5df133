import Clausal.Proofs.Draft.Plain

/-! # Operands

The values that are bound as parameters, the operands of an operator that are written, and how many
it takes.  The layout of an operator depends on nothing else of its arguments.  No operator is
called like a form, so the name at the head of a call settles whose layout it has.
-/
namespace Clausal

/-- The value is bound as it stands. -/
def Value.isBound : Value → Bool
  | .bool _ => true
  | .int _ => true
  | .float _ => true
  | .str _ => true
  | _ => false

namespace OperatorPolicy

/-- The operands that are written. -/
def operands (p : OperatorPolicy) (args : List Value) : List Value :=
  if p.ignoreNull then args.filter (fun v => !v.isNull) else args

/-- The operator takes so many operands. -/
def takes (p : OperatorPolicy) (n : Nat) : Bool :=
  match p.arity with
  | .binary => n == 2
  | .comparison => 2 ≤ n
  | .variadic => (if p.unary then 1 else 2) ≤ n

variable {p : OperatorPolicy} {args : List Value} (op : String) (whole : Value)

theorem layout_of_nil (h : p.operands args = []) :
    p.layout op args whole = if p.ignoreNull then .empty else .fail .noOperands whole := by
  unfold operands at h
  simp only [layout, h]

theorem layout_of_single {v : Value} (h : p.operands args = [v]) :
    p.layout op args whole = if p.unary then .expr .same v else .fail .oneOperand whole := by
  unfold operands at h
  simp only [layout, h]

theorem layout_of_many {x y : Value} {rest : List Value} (h : p.operands args = x :: y :: rest) :
    p.layout op args whole =
      p.joined op (p.sql.getD (keyword op)) (x :: y :: rest) whole := by
  unfold operands at h
  simp only [layout, h]

end OperatorPolicy

theorem form_of_operator : ∀ e ∈ OperatorPolicy.builtin, Table.has e.1 Form.builtin = false := by
  decide

namespace Grammar

theorem form?_of_operator {op : String} {p : OperatorPolicy}
    (h : Table.get? op OperatorPolicy.builtin = some p) : standard.form? op = none := by
  have hhas : Table.has op Form.builtin = false := form_of_operator _ (Table.mem_of_get? h)
  simpa [Table.has, form?, standard] using hhas

theorem form_membership {op : String} (hop : Text.lower op ∈ ["in", "not-in"]) :
    standard.form? (Text.lower op) = some Form.membership := by
  simp only [List.mem_cons, List.not_mem_nil, or_false] at hop
  rcases hop with hop | hop <;> rw [hop] <;> rfl

section Heads
variable {g : Grammar} {op : String} {args : List Value}

theorem exprLayout_form {rule : FormRule} (h : g.form? (Text.lower op) = some rule)
    (aliasPosition : Bool) :
    g.exprLayout aliasPosition (.call op args) = rule (Text.lower op) args := by
  simp only [Value.call, exprLayout, listLayout, Value.ident?, Option.bind_some, headed?, h]

theorem exprLayout_operator {p : OperatorPolicy}
    (h : Table.get? (Text.lower op) OperatorPolicy.builtin = some p) (aliasPosition : Bool) :
    standard.exprLayout aliasPosition (.call op args) =
      p.layout (Text.lower op) args (.call op args) := by
  have hoperator : standard.operator? (Text.lower op) = some p := h
  simp only [Value.call, exprLayout, listLayout, Value.ident?, Option.bind_some, headed?,
    form?_of_operator h, hoperator, Option.map_some]

end Heads

end Grammar

end Clausal
