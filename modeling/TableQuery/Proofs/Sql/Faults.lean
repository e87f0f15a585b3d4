import TableQuery.Proofs.Outcome
import TableQuery.Sql.Render

/-! What writing a statement out can fail with. None of it is a refusal. -/

namespace TableQuery
namespace Binding
open Outcome

/-- The faults of a statement that cannot be written: a parameter of the filter with the name of a
column that is assigned, rows of a list that do not fit together, and marks that no text stands for. -/
inductive Unwritten : Fault → Prop
  | clash (name : String) : Unwritten (.parameterClash name)
  | short : Unwritten .rowTooShort
  | row (type : String) : Unwritten (.notIterable type)
  | mark (key : Value) : Unwritten (.missingKey key)
  | around (reason : String) : Unwritten (.badIndex reason)

theorem fails_name (d : Dialect) (n : Names) (p : Piece) : Fails Unwritten (name d n p) := by
  have hcounted : ∀ base, Fails Unwritten (n.counted d base) := by
    intro base
    unfold Names.counted
    dsimp only
    split
    · exact .error (.clash _)
    · exact .ok _
  cases p with
  | text s => exact .ok _
  | quoted s => exact .ok _
  | slot s =>
    cases s with
    | cell key v => exact .ok _
    | operand base v cast => exact (hcounted base).bind fun _ _ => .pure _
    | members base vs => exact (hcounted base).bind fun _ _ => .pure _

theorem fails_nameAll (d : Dialect) (n : Names) (l : Layout) : Fails Unwritten (nameAll d n l) := by
  induction l generalizing n with
  | nil => exact .ok _
  | cons p l ih => exact (fails_name d n p).bind fun _ _ => (ih _).bind fun _ _ => .pure _

theorem fails_rowsPieces (names : List String) (i : Nat) (rows : List (List Value)) :
    Fails Unwritten (rowsPieces names i rows) := by
  induction rows generalizing i with
  | nil => exact .ok _
  | cons row rows ih =>
    have hrow : Fails Unwritten (rowPieces names i row) := by
      unfold rowPieces
      dsimp only
      split
      · exact .error .short
      · exact .ok _
    exact hrow.bind fun _ _ => (ih _).bind fun _ _ => .pure _

theorem fails_expand (d : Dialect) (taken : List String) (name : String) (values : List Value) :
    Fails Unwritten (expand d taken name values) := by
  unfold expand
  split
  · refine Fails.bind (.mapM fun v _ => ?_) fun rows _ => ?_
    · unfold iterateRow
      split
      · exact .ok _
      · exact .error (.row _)
    · exact (fails_rowsPieces _ _ _).bind fun _ _ => .pure _
  · exact .ok _

theorem fails_expandAll (d : Dialect) (known : List String) (lists : List (String × List Value))
    (taken done names : List String) :
    Fails Unwritten (expandAll d known lists taken done names) := by
  induction names generalizing taken done with
  | nil => exact .ok _
  | cons name names ih =>
    rw [expandAll]
    split
    · exact .error (.mark _)
    · split
      · exact ih _ _
      · split
        · exact ih _ _
        · exact (fails_expand d taken name _).bind fun _ _ => (ih _ _).bind fun _ _ => .pure _

theorem fails_unfold (texts : List (String × String)) (sql : String) :
    Fails Unwritten (unfold texts sql) := by
  refine Fails.bind (.mapM fun m _ => ?_) fun _ _ => .pure _
  unfold unfoldMark
  split
  · split
    · exact .error (.mark _)
    · exact .ok _
    · unfold wrap
      split
      · exact .ok _
      · exact .error (.around _)
  · exact .ok _

theorem fails_write (d : Dialect) (taken : List String) (pieces : List Named) :
    Fails Unwritten (write d taken pieces) := by
  unfold write
  dsimp only
  split
  · exact .ok _
  · exact (fails_expandAll d _ _ _ _ _).bind fun _ _ => (fails_unfold _ _).bind fun _ _ => .pure _

end Binding

open Binding Outcome in
theorem Statement.fails_render (d : Dialect) (s : Statement) : Fails Unwritten (s.render d) :=
  (fails_nameAll d {} _).bind fun _ _ => fails_write d _ _

end TableQuery
