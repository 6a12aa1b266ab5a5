import DurableFlow.Proofs.Machine.Transparency
import DurableFlow.Proofs.Serializer.Bindings
import Mathlib.Data.List.DropRight
import Mathlib.Data.Set.Card

/-!
# Histories are the end of a log

A layer that keeps histories is told what every transition has come to, and of every removal by force. Of
each flow it has the last records since the flow was last removed, and it has nothing of other flows.
-/

namespace DurableFlow

/-- What a layer that keeps histories is told: that a transition has come to this, or that a flow is removed
by force. -/
inductive Turn where
  | carriedOut (call : Execution) (continuation : Continuation) (next : MachineState)
  | removed (flow : FlowId)

namespace Turn

def flow : Turn → FlowId
  | carriedOut call _ _ => call.fiber.id
  | removed flow => flow

/-- The record of a transition, unless it has removed the flow. -/
def record? : Turn → Option TransitionRecord
  | carriedOut call continuation next =>
    if next.isRemoved then none
    else some ⟨call.event.name, call.transition.actions.map Action.name, continuation,
      next.checkpoint.errors.length⟩
  | removed _ => none

end Turn

/-- The records of a flow since it was last removed, oldest first. -/
def sinceRemoval (flow : FlowId) (turns : List Turn) : List TransitionRecord :=
  ((turns.filter (·.flow = flow)).rtakeWhile (·.record?.isSome)).filterMap Turn.record?

section

variable {flow : FlowId} {turn : Turn} {r : TransitionRecord}

theorem sinceRemoval_of_ne (h : turn.flow ≠ flow) (turns : List Turn) :
    sinceRemoval flow (turns ++ [turn]) = sinceRemoval flow turns := by
  rw [sinceRemoval, List.filter_append, List.filter_singleton, decide_eq_false h, cond_false,
    List.append_nil]
  rfl

theorem sinceRemoval_of_none (h : turn.record? = none) (turns : List Turn) :
    sinceRemoval turn.flow (turns ++ [turn]) = [] := by
  rw [sinceRemoval, List.filter_append, List.filter_singleton, decide_eq_true rfl, cond_true,
    List.rtakeWhile_concat_neg]
  · rfl
  · simp [h]

theorem sinceRemoval_of_some (h : turn.record? = some r) (turns : List Turn) :
    sinceRemoval turn.flow (turns ++ [turn]) = sinceRemoval turn.flow turns ++ [r] := by
  rw [sinceRemoval, List.filter_append, List.filter_singleton, decide_eq_true rfl, cond_true,
    List.rtakeWhile_concat_pos _ _ _ (by simp [h]), List.filterMap_append, sinceRemoval]
  simp [h]

end

theorem TransitionRecord.push_rtake {limit : Nat} (h : 0 < limit) (log : List TransitionRecord)
    (r : TransitionRecord) : push limit (log.rtake limit) r = (log ++ [r]).rtake limit := by
  obtain ⟨n, rfl⟩ := Nat.exists_eq_succ_of_ne_zero h.ne'
  rw [List.rtake_concat_succ, push]
  refine congrArg (· ++ [r]) ?_
  rw [List.rtake, List.length_drop, List.rtake]
  split_ifs with hfull
  · rw [List.tail_drop]
    congr 1
    omega
  · congr 1
    omega

namespace Histories

variable {limit : Nat} {turns : List Turn} {hs : Histories}

/-- The records that are kept of a flow, oldest first. -/
def records (hs : Histories) (flow : FlowId) : List TransitionRecord := (hs.get? flow).getD []

/-- What a layer with these histories makes of what it is told. -/
def told (limit : Nat) (hs : Histories) : Turn → Histories
  | .carriedOut call continuation next => (Executor.recordIn limit hs call continuation next).1
  | .removed flow => hs.erase flow

def toldAll (limit : Nat) (turns : List Turn) (hs : Histories) : Histories := turns.foldl (told limit) hs

theorem told_of_none {turn : Turn} (h : turn.record? = none) (limit : Nat) (hs : Histories) :
    hs.told limit turn = hs.erase turn.flow := by
  cases turn with
  | removed flow => rfl
  | carriedOut call continuation next =>
    rw [Turn.record?] at h
    split_ifs at h with hremoved
    rw [told, Executor.recordIn, if_pos hremoved]
    rfl

theorem told_of_some {turn : Turn} {r : TransitionRecord} (h : turn.record? = some r) (limit : Nat)
    (hs : Histories) :
    hs.told limit turn = hs.set turn.flow (TransitionRecord.push limit (hs.records turn.flow) r) := by
  cases turn with
  | removed flow => cases h
  | carriedOut call continuation next =>
    rw [Turn.record?] at h
    split_ifs at h with hremoved
    obtain rfl := Option.some.inj h
    rw [told, Executor.recordIn, if_neg hremoved]
    rfl

theorem get?_told_of_ne {turn : Turn} {flow : FlowId} (h : turn.flow ≠ flow) (limit : Nat)
    (hs : Histories) : (hs.told limit turn).get? flow = hs.get? flow := by
  cases hr : turn.record? with
  | none => rw [told_of_none hr, Bindings.get?_erase, if_neg h]
  | some r => rw [told_of_some hr, Bindings.get?_set, if_neg h]

/-- The histories have, of each flow with records since its last removal, the last `limit` of these. -/
structure Follows (limit : Nat) (turns : List Turn) (hs : Histories) : Prop where
  distinct : hs.keys.Nodup
  bound : ∀ flow, hs.get? flow =
    if sinceRemoval flow turns = [] then none else some ((sinceRemoval flow turns).rtake limit)

theorem Follows.records (h : Follows limit turns hs) (flow : FlowId) :
    hs.records flow = (sinceRemoval flow turns).rtake limit := by
  rw [Histories.records, h.bound]
  split_ifs with hnil
  · rw [hnil, List.rtake_nil]
    rfl
  · rfl

theorem Follows.encard (h : Follows limit turns hs) :
    Set.encard {flow | sinceRemoval flow turns ≠ []} = hs.size := by
  have hkeys : {flow | sinceRemoval flow turns ≠ []} = (hs.keys.toFinset : Set FlowId) := by
    ext flow
    rw [Set.mem_ofPred_eq, Finset.mem_coe, List.mem_toFinset, ← Bindings.isSome_get?_iff, h.bound]
    split_ifs with hnil <;> simp [hnil]
  rw [hkeys, Set.encard_coe_eq_coe_finsetCard, List.toFinset_card_of_nodup h.distinct, Bindings.keys,
    List.length_map, Bindings.size]

theorem follows_nil (limit : Nat) : Follows limit [] .empty := ⟨List.nodup_nil, fun _ => rfl⟩

theorem Follows.told (h : Follows limit turns hs) (hlimit : 0 < limit) (turn : Turn) :
    Follows limit (turns ++ [turn]) (hs.told limit turn) := by
  refine ⟨?_, fun flow => ?_⟩
  · cases hr : turn.record? with
    | none =>
      rw [told_of_none hr]
      exact Bindings.nodup_keys_erase h.distinct _
    | some r =>
      rw [told_of_some hr]
      exact Bindings.nodup_keys_set h.distinct _ _
  by_cases hflow : turn.flow = flow
  · subst hflow
    cases hr : turn.record? with
    | none =>
      rw [told_of_none hr, Bindings.get?_erase, if_pos rfl, if_pos (sinceRemoval_of_none hr turns)]
    | some r =>
      rw [told_of_some hr, Bindings.get?_set_self, h.records, TransitionRecord.push_rtake hlimit,
        sinceRemoval_of_some hr, if_neg (List.append_ne_nil_of_right_ne_nil _ (List.cons_ne_nil r []))]
  · rw [get?_told_of_ne hflow, sinceRemoval_of_ne hflow, h.bound]

theorem Follows.toldAll (hlimit : 0 < limit) (turns : List Turn) :
    Follows limit turns (Histories.toldAll limit turns .empty) := by
  induction turns using List.reverseRecOn with
  | nil => exact follows_nil limit
  | append_singleton turns turn ih =>
    rw [Histories.toldAll, List.foldl_concat]
    exact ih.told hlimit turn

end Histories

namespace Machine

variable {σ : Type} {m : Machine σ}

/-- What the executor answers to transitions, and the removals by force, in order. -/
def turns (m : Machine σ) : List (MachineCall σ) → List Turn
  | [] => []
  | .execute perform call :: calls =>
    let (answer, m) := m.carryOut perform call
    .carriedOut call answer.continuation answer.state :: turns m calls
  | .forceRemove flow :: calls => .removed flow :: turns (m.after (.forceRemove flow)) calls
  | .elsewhere change :: calls => turns (m.after (.elsewhere change)) calls

/-- A layer that keeps histories is told what the executor around it answers. -/
theorem executor_afterAll {limit : Nat} {hs : Histories} {inner : Executor}
    (hm : m.executor = .history limit hs inner) (calls : List (MachineCall σ)) :
    ∃ inner', (m.afterAll calls).executor = .history limit (hs.toldAll limit (m.turns calls)) inner' := by
  induction calls generalizing m hs inner with
  | nil => exact ⟨inner, hm⟩
  | cons call calls ih =>
    obtain ⟨executor, h, d⟩ := m
    obtain rfl : executor = .history limit hs inner := hm
    cases call with
    | execute perform call =>
      exact ih (m := (carryOut ⟨.history limit hs inner, h, d⟩ perform call).2) rfl
    | forceRemove flow => exact ih (m := after ⟨.history limit hs inner, h, d⟩ (.forceRemove flow)) rfl
    | elsewhere change => exact ih (m := after ⟨.history limit hs inner, h, d⟩ (.elsewhere change)) rfl

/-- Whatever a layer that keeps histories is told, it has of each flow the last records since the flow was
last removed, and it has as many flows as there are with such records. What it is told of one flow changes
nothing for another. And a layer around any executor is told, in order, of the removals and of what the
executor has answered. -/
theorem histories_of_calls (limit : Nat) :
    (∀ turns : List Turn,
      let hs := Histories.toldAll (max limit 1) turns .empty
      (∀ flow, hs.records flow = (sinceRemoval flow turns).rtake (max limit 1)) ∧
        Set.encard {flow | sinceRemoval flow turns ≠ []} = hs.size ∧
        ∀ turn flow, turn.flow ≠ flow → (hs.told (max limit 1) turn).records flow = hs.records flow) ∧
    ∀ (σ : Type) (inner : Executor) (h : σ) (d : Deployment) (calls : List (MachineCall σ)),
      let m : Machine σ := ⟨.withHistory limit inner, h, d⟩
      ∃ inner', (m.afterAll calls).executor =
        .history (max limit 1) (Histories.toldAll (max limit 1) (m.turns calls) .empty) inner' := by
  refine ⟨fun turns => ?_, fun σ inner h d calls => executor_afterAll rfl calls⟩
  have hfollows : Histories.Follows (max limit 1) turns (Histories.toldAll (max limit 1) turns .empty) :=
    .toldAll (Nat.lt_of_lt_of_le Nat.one_pos (Nat.le_max_right limit 1)) turns
  refine ⟨hfollows.records, hfollows.encard, fun turn flow hflow => ?_⟩
  rw [Histories.records, Histories.get?_told_of_ne hflow, Histories.records]

def sampleTurn (flow : FlowId) : Turn :=
  let state : MachineState := ⟨⟨.unstarted "app.Pay", [], 0⟩, false, false⟩
  .carriedOut ⟨⟨flow, "app.Pay"⟩, state, .doRemainingWork,
    ⟨state, [.removeCheckpoint flow], .processEvents⟩⟩ .processEvents state

theorem histories_of_calls_of_two :
    let flow : FlowId := ⟨List.replicate 16 1, rfl⟩
    let other : FlowId := ⟨List.replicate 16 2, rfl⟩
    let hs := Histories.toldAll (max 0 1) [sampleTurn flow, sampleTurn other, sampleTurn flow] .empty
    (Turn.removed other).flow ≠ flow ∧ hs.size = 2 ∧
      (hs.told (max 0 1) (.removed other)).records flow =
        [⟨"DoRemainingWork", ["RemoveCheckpoint"], .processEvents, 0⟩] := by
  intro flow other hs
  have hflow : (Turn.removed other).flow ≠ flow := by decide
  obtain ⟨hrecords, -, hother⟩ :=
    (histories_of_calls 0).1 [sampleTurn flow, sampleTurn other, sampleTurn flow]
  refine ⟨hflow, by decide, ?_⟩
  rw [hother (.removed other) flow hflow, hrecords]
  decide

end Machine

end DurableFlow
