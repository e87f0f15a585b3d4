import TableQuery.Handle.Table
import TableQuery.Proofs.Engine.Events

/-! What a terminal call dispatches, and the handles that chains of calls lead to. -/

namespace TableQuery
namespace Handle
open Run

/-- The handle that a chain of calls leads to; a call that is refused leaves it as it is. The objects
that the caller passes are as they are at the time of each call. -/
def after (h : Handle) (calls : List (Store × Call)) : Handle :=
  calls.foldl (fun h c => (h.apply c.1 c.2).toOption.getD h) h

/-- An event that carries no statement, or a written form of the one that the call stands for. -/
def Dispatches (h : Handle) (t : Terminal) (e : Event) : Prop :=
  ∃ s, h.statement t = .ok s ∧ e.Writes s

theorem adds_rows (e : Executor) (h : Handle) (t : Terminal) (answer : Answer) :
    Adds (h.Dispatches t) (rows e h t answer) := by
  refine Adds.ofOutcome_bind fun s hs => (Adds.log _).bind fun _ => ?_
  exact (Executor.adds_fetchAll e s _ answer).mono fun _ hw => ⟨s, hs, hw⟩

/-- Whatever the database answers, a terminal call sends it no statement but its own. -/
theorem adds_perform (e : Executor) (h : Handle) (t : Terminal) (answer : Answer) :
    Adds (h.Dispatches t) (perform e h t answer) := by
  have hr := adds_rows e h t answer
  cases t with
  | count =>
    refine Adds.ofOutcome_bind fun s hs => ?_
    have hf := (Executor.adds_fetchScalar e s (.map (h.telemetry .count)) answer).mono
      (fun _ hw => (⟨s, hs, hw⟩ : h.Dispatches .count _))
    exact hf.bind fun _ => (Adds.ofOutcome _).bind fun _ => Adds.pure _
  | findUnique =>
    refine hr.bind fun found => ?_
    split
    · exact Adds.ofOutcome _
    · exact Adds.pure _
  | create data =>
    refine hr.bind fun stored => ?_
    split
    · exact Adds.ofOutcome _
    · exact Adds.pure _
  | findMany => exact hr.bind fun _ => Adds.pure _
  | findFirst => exact hr.bind fun _ => Adds.pure _
  | createMany data => exact hr.bind fun _ => Adds.pure _
  | update data => exact hr.bind fun _ => Adds.pure _
  | delete => exact hr.bind fun _ => Adds.pure _

end Handle
end TableQuery
