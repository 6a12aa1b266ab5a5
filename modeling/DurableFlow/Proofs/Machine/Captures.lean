import DurableFlow.Machine.Executor
import DurableFlow.Proofs.Environment.Selection
import DurableFlow.Proofs.Values.Lawful

/-!
# Captures of one state

Local variables are captured one after the other, and a later capture takes the place of an earlier one of
its name. The order of the captures leaves no trace: what is kept are the last captures, by name. So what
freezing comes to depends on these alone, and fibers that are captures of one state are not told apart by
comparing their bytes.
-/

namespace DurableFlow

namespace Ordered

variable {α β : Type} {cmp : α → α → Ordering}

theorem Increasing.eq_of_mem_iff [Std.TransCmp cmp] [Std.LawfulEqCmp cmp] {m m' : List (α × β)}
    (hm : Increasing cmp (m.map (·.1))) (hm' : Increasing cmp (m'.map (·.1)))
    (h : ∀ x, x ∈ m ↔ x ∈ m') : m = m' := by
  have entries : m.Perm m' :=
    (List.perm_ext_iff_of_nodup (List.Nodup.of_map _ hm.nodup) (List.Nodup.of_map _ hm'.nodup)).2 h
  refine entries.eq_of_pairwise (fun x y _ _ hxy hyx => ?_) (List.pairwise_map.1 hm) (List.pairwise_map.1 hm')
  rw [Std.OrientedCmp.gt_of_lt hyx] at hxy
  cases hxy

end Ordered

/-- A local variable to be captured. -/
structure Local where
  name : String
  type : Ty
  value : Value

namespace Local

/-- What is kept of it. -/
def entry (l : Local) : String × Value := (l.name, l.value.erase l.type)

/-- The value that captures leave for a name. -/
def final? (ls : List Local) (name : String) : Option Value :=
  ls.foldl (fun found l => if l.name = name then some l.entry.2 else found) none

theorem final?_concat (ls : List Local) (l : Local) (name : String) :
    final? (ls ++ [l]) name = if l.name = name then some l.entry.2 else final? ls name := by
  rw [final?, List.foldl_append]
  rfl

theorem last_iff_final? {ls : List Local} {name : String} {v : Value} :
    Ordered.Last (name, v) (ls.map entry) ↔ final? ls name = some v := by
  induction ls using List.reverseRecOn with
  | nil => exact iff_of_false Ordered.not_last_nil (by simp [final?])
  | append_singleton ls l ih =>
    rw [List.map_append, List.map_singleton, Ordered.last_concat, ih, final?_concat]
    by_cases hname : l.name = name
    · subst hname
      simp [entry, eq_comm]
    · have other : (name, v) ≠ l.entry := fun same => hname (congrArg Prod.fst same).symm
      rw [if_neg hname]
      exact ⟨fun h => h.elim (fun same => absurd same other) And.right,
        fun h => .inr ⟨fun same => hname same.symm, h⟩⟩

end Local

namespace Snapshot

open Local

def withLocals (s : Snapshot) (ls : List Local) : Snapshot :=
  ls.foldl (fun s l => s.withLocal l.name l.type l.value) s

variable {ls ls' : List Local}

theorem withLocals_eq (s : Snapshot) (ls : List Local) : s.withLocals ls =
    { s with locals := (ls.map entry).foldl (fun m x => Ordered.put compare x.1 x.2 m) s.locals } := by
  induction ls generalizing s with
  | nil => rfl
  | cons l ls ih =>
    rw [withLocals, List.foldl_cons, ← withLocals, ih]
    rfl

variable {id : FlowId} {flowClass : String} {point : ResumePoint}

theorem locals_withLocals (ls : List Local) :
    ((new id flowClass point).withLocals ls).locals = Ordered.ofEntries compare (ls.map entry) := by
  rw [withLocals_eq]
  rfl

theorem increasing_locals (ls : List Local) : Ordered.Increasing compare
    (((new id flowClass point).withLocals ls).locals.map (·.1)) := by
  rw [locals_withLocals, Ordered.map_fst_ofEntries]
  exact Ordered.increasing_ofList _

/-- What has been captured are the last values of the names. -/
theorem mem_locals_iff {name : String} {v : Value} :
    (name, v) ∈ ((new id flowClass point).withLocals ls).locals ↔ final? ls name = some v := by
  have lawful : Ordered.LawfulOn (compare : String → String → Ordering) fun _ => True := .of_lawful
  rw [locals_withLocals, lawful.mem_ofEntries fun _ _ => trivial, last_iff_final?]

theorem withLocals_eq_of_final? (h : ∀ name, final? ls name = final? ls' name) :
    (new id flowClass point).withLocals ls = (new id flowClass point).withLocals ls' := by
  have same : ((new id flowClass point).withLocals ls).locals =
      ((new id flowClass point).withLocals ls').locals := by
    refine (increasing_locals ls).eq_of_mem_iff (increasing_locals ls') fun ⟨name, v⟩ => ?_
    rw [mem_locals_iff, mem_locals_iff, h]
  rw [withLocals_eq, withLocals_eq] at same ⊢
  exact congrArg (fun m => { new id flowClass point with locals := m }) same

end Snapshot

namespace Call

variable {st st₁ st₂ : Store} {e k f : Nat} {c : Context} {s s' : Snapshot} {b : Bytes}

theorem magic_of_reader? {m : Magic} {i : Nat} (h : st.reader? e m = some i) :
    m = SchemeKind.checkpoint.magic := by
  obtain ⟨_, accepted, -⟩ := List.findIdx?_eq_some_iff_getElem.1 h
  obtain ⟨hmagic, hkind⟩ := SchemeKind.accepts_iff.1 accepted
  rw [SchemeKind.refusal?_checkpoint] at hkind
  rw [← hmagic, hkind]

/-- The scheme that is found for reading is the one that writes, and finding it leaves the factory where it
is. -/
theorem ready_of_schemeFor {m : Magic} {k' : Nat} (hst : st.Ready e c k f)
    (h : runOn (schemeFor e m .checkpoint) st = (.ok k', st₁)) :
    k' = k ∧ st₁.Ready e c k f ∧ st₁.setting f = st.setting f := by
  obtain ⟨st', hscheme, hcases⟩ := runOn_schemeFor hst.toKeepsCheckpoints m
  obtain ⟨hplace, rfl⟩ := Prod.mk.inj (hscheme.symm.trans h)
  constructor
  · have hmagic : c.magic = SchemeKind.checkpoint.magic := by
      rw [← Store.magic_of_writer? hst.scheme, hst.kind]
    cases hi : st.reader? e m with
    | none =>
      rw [hi] at hplace
      cases hplace
    | some i =>
      rw [magic_of_reader? hi, ← hmagic, hst.reader] at hplace
      exact (Except.ok.inj hplace).symm
  · rcases hcases with rfl | ⟨i, hi, rfl⟩
    · exact ⟨hst, rfl⟩
    · exact ⟨hst.remembering hi, rfl⟩

theorem ready_of_thaw (hst : st.Ready e c k f) (h : runOn (thaw e b) st = (.ok s, st₁)) :
    st₁.Ready e c k f ∧ st₁.setting f = st.setting f := by
  obtain ⟨m, k', st₂, f', hk, hf⟩ := of_runOn_thaw hst.toKeepsCheckpoints h
  obtain ⟨rfl, hst₂, hsetting⟩ := ready_of_schemeFor hst hk
  rw [runOn_factoryFor_of_ready hst₂] at hf
  obtain ⟨-, rfl⟩ := Prod.mk.inj hf
  exact ⟨hst₂, hsetting⟩

/-- The factory stays where it is, with all its serializers, while snapshots are frozen and thawed. -/
theorem Uses.ready (h : Uses e st st₁) (hst : st.Ready e c k f) :
    st₁.Ready e c k f ∧ st₁.setting f = st.setting f := by
  induction h with
  | refl => exact ⟨hst, rfl⟩
  | freeze _ hfreeze ih =>
    rw [runOn_freeze_of_ready ih.1] at hfreeze
    obtain ⟨-, rfl⟩ := Prod.mk.inj hfreeze
    exact ih
  | thaw _ hthaw ih =>
    obtain ⟨hready, hsetting⟩ := ready_of_thaw ih.1 hthaw
    exact ⟨hready, hsetting.trans ih.2⟩

/-- What has been frozen once is frozen to the same bytes later on. -/
theorem freeze_again_of_uses (he : st.KeepsCheckpoints e c) (h : runOn (freeze e s) st = (.ok b, st₁))
    (huses : Uses e st₁ st₂) : runOn (freeze e s) st₂ = (.ok b, st₂) := by
  obtain ⟨k, f, hscheme, hkind, halike, hprovides, he₁, hserialize⟩ := of_runOn_freeze he h
  have hready : st₁.Ready e c k f :=
    ⟨he₁, (halike.writer?_eq e c.magic).trans hscheme, (halike.kind_eq k).trans hkind, hprovides⟩
  obtain ⟨hready₂, hsetting⟩ := huses.ready hready
  rw [runOn_freeze_of_ready hready₂, hsetting, hserialize]

end Call

/-- A layer that verifies submits nothing where the fiber has the bytes that it had before. -/
theorem Executor.deployment_verifying_of_frozen_eq {σ : Type} (perform : Performer σ) (call : Execution)
    (v : Nat) (x : Executor) (host : σ) (d : Deployment)
    (h : (x.execute perform call host d).state.frozen? = call.previous.frozen?) :
    ((verifying v x).execute perform call host d).deployment =
      (x.execute perform call host d).deployment := by
  have nothing : newlyFrozen? call.previous (x.execute perform call host d).state = none := by
    rw [newlyFrozen?, h]
    cases call.previous.frozen? with
    | none => rfl
    | some b => exact if_pos rfl
  change (newlyFrozen? call.previous (x.execute perform call host d).state).elim _ _ = _
  rw [nothing]
  rfl

namespace Call

open Local

/-- Captures that leave the same value for every name are one state, in whatever order they were made and
whatever they have replaced. An environment freezes them to the same bytes, or fails with the same error,
and is left the same. Where no serializer is contributed, this holds of the second ones also if they are
frozen later on. So a layer that verifies, which compares bytes, does not take the one for a new fiber after
the other. -/
theorem freeze_eq_of_last_captures (id : FlowId) (flowClass : String) (point : ResumePoint)
    {ls ls' : List Local} (h : ∀ name, final? ls name = final? ls' name) :
    let s := (Snapshot.new id flowClass point).withLocals ls
    let s' := (Snapshot.new id flowClass point).withLocals ls'
    (∀ e st, runOn (freeze e s) st = runOn (freeze e s') st) ∧
      (∀ e c st st₁ st₂ b, st.KeepsCheckpoints e c → runOn (freeze e s) st = (.ok b, st₁) →
        Uses e st₁ st₂ → runOn (freeze e s') st₂ = (.ok b, st₂)) ∧
      ∀ e st b b', (runOn (freeze e s) st).1 = .ok b → (runOn (freeze e s') st).1 = .ok b' →
        ∀ (σ : Type) (perform : Performer σ) (call : Execution) (v : Nat) (x : Executor) (host : σ)
          (d : Deployment),
          call.previous.frozen? = some b → (x.execute perform call host d).state.frozen? = some b' →
            ((Executor.verifying v x).execute perform call host d).deployment =
              (x.execute perform call host d).deployment := by
  intro s s'
  have same : s = s' := Snapshot.withLocals_eq_of_final? h
  refine ⟨fun e st => by rw [same], fun e c st st₁ st₂ b he hfreeze huses => ?_, ?_⟩
  · rw [← same]
    exact freeze_again_of_uses he hfreeze huses
  · intro e st b b' hb hb' σ perform call v x host d hprevious hnext
    rw [← same, hb] at hb'
    refine Executor.deployment_verifying_of_frozen_eq perform call v x host d ?_
    rw [hprevious, hnext, Except.ok.inj hb']

def sampleLocals : List Local :=
  [⟨"amount", .long, .int (-5)⟩, ⟨"payment", samplePayment.type, .seq [.text "bob", .int 7, .none]⟩,
    ⟨"rates", .list .double, .seq [.double 0x7FF8000000000001]⟩]

def reorderedLocals : List Local := ⟨"amount", .string, .text "?"⟩ :: sampleLocals.reverse

theorem freeze_eq_of_last_captures_reordered :
    let s := (Snapshot.new sampleSnapshot.flowId "app.Pay" ⟨"await", 3⟩).withLocals reorderedLocals
    (∀ name, final? sampleLocals name = final? reorderedLocals name) ∧
      runOn (freeze 0 s) sampleStore = (.ok sampleBytes, sampleStoreAfter) ∧
      runOn (freeze 0 s) sampleStoreAfter = (.ok sampleBytes, sampleStoreAfter) := by
  have same : ∀ name, final? sampleLocals name = final? reorderedLocals name := by
    intro name
    by_cases known : name = "amount" ∨ name = "payment" ∨ name = "rates"
    · rcases known with rfl | rfl | rfl <;> simp [final?, sampleLocals, reorderedLocals]
    · simp only [not_or, eq_comm (a := name)] at known
      simp [final?, sampleLocals, reorderedLocals, known]
  have captured : (Snapshot.new sampleSnapshot.flowId "app.Pay" ⟨"await", 3⟩).withLocals sampleLocals =
      sampleSnapshot := by
    rw [Snapshot.withLocals_eq]
    exact congrArg (fun m => { sampleSnapshot with locals := m })
      (Ordered.ofEntries_of_increasing kept_sample.ordered)
  obtain ⟨now, later, -⟩ :=
    freeze_eq_of_last_captures sampleSnapshot.flowId "app.Pay" ⟨"await", 3⟩ same
  rw [captured] at now later
  refine ⟨same, ?_, later 0 _ _ _ _ _ keepsCheckpoints_sample runOn_freeze_sample .refl⟩
  rw [← now, runOn_freeze_sample]

end Call

end DurableFlow
