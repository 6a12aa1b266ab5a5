import DurableFlow.Proofs.Environment.Requests
import Mathlib.Data.Finset.Card
import Mathlib.Data.List.Duplicate
import Mathlib.Data.String.Basic

/-!
# Names that are admitted in batches

A batch of names is admitted as a whole or not at all. What a policy lists stays in increasing order,
whatever is done to it, so that the growth of the list counts the names that are new.
-/

namespace DurableFlow

namespace Policy

variable {p p' : Policy} {batch : List String} {name : String}

theorem mem_repeated : name ∈ repeated batch ↔ List.Duplicate name batch := by
  rw [repeated, Ordered.mem_ofList, List.mem_filter, List.duplicate_iff_two_le_count, decide_eq_true_iff]
  refine ⟨And.right, fun h => ⟨?_, h⟩⟩
  exact List.count_pos_iff.1 (Nat.lt_of_lt_of_le Nat.zero_lt_two h)

theorem repeated_eq_nil_iff : repeated batch = [] ↔ batch.Nodup := by
  rw [List.nodup_iff_forall_not_duplicate, List.eq_nil_iff_forall_not_mem]
  exact forall_congr' fun name => not_congr mem_repeated

theorem sorted_repeated (batch : List String) : (repeated batch).Pairwise (· < ·) :=
  (Ordered.increasing_ofList _).imp compare_lt_iff_lt.1

theorem mem_names_join : name ∈ (p.join batch).names ↔ name ∈ p.names ∨ name ∈ batch :=
  Ordered.mem_foldl_insert

theorem toFinset_names_join (p : Policy) (batch : List String) :
    (p.join batch).names.toFinset = p.names.toFinset ∪ batch.toFinset := by
  ext name
  rw [Finset.mem_union, List.mem_toFinset, List.mem_toFinset, List.mem_toFinset, mem_names_join]

theorem increasing_names_join (h : Ordered.Increasing compare p.names) (batch : List String) :
    Ordered.Increasing compare (p.join batch).names :=
  h.foldl_insert batch

theorem isAdmitted_join :
    (p.join batch).isAdmitted name = true ↔ p.isAdmitted name = true ∨ name ∈ batch := by
  rw [isAdmitted, isAdmitted, Bool.or_eq_true, Bool.or_eq_true, List.contains_iff_mem,
    List.contains_iff_mem, mem_names_join, or_assoc]
  rfl

theorem length_names_join (h : Ordered.Increasing compare p.names) (batch : List String) :
    (p.join batch).names.length = p.names.length + (batch.toFinset \ p.names.toFinset).card := by
  rw [← List.toFinset_card_of_nodup (increasing_names_join h batch).nodup,
    ← List.toFinset_card_of_nodup h.nodup, toFinset_names_join, ← Finset.union_sdiff_self_eq_union]
  exact Finset.card_union_of_disjoint Finset.disjoint_sdiff

end Policy

namespace Store

variable {st st' st'' : Store} {i : Nat} {added added' : Finset String}

def admitted (st : Store) (i : Nat) : Finset String := (st.policy i).names.toFinset

/-- A policy lists these names in addition, and nothing else changes. -/
structure Grows (st : Store) (i : Nat) (added : Finset String) (st' : Store) : Prop where
  admitted : st'.admitted i = st.admitted i ∪ added
  isAdmitted : ∀ name, (st'.policy i).isAdmitted name = true ↔
    (st.policy i).isAdmitted name = true ∨ name ∈ added
  kept : ∃ names, st' = st.setPolicy i { st.policy i with names := names }

theorem policy_setPolicy (hi : i - 1 < st.policies.length) (p : Policy) :
    (st.setPolicy i p).policy i = p :=
  (getD_set hi (i - 1) p _).trans (if_pos rfl)

theorem setPolicy_policy (st : Store) (i : Nat) : st.setPolicy i (st.policy i) = st := by
  rw [setPolicy, policy, set_getD]

theorem setPolicy_setPolicy (st : Store) (i : Nat) (p p' : Policy) :
    (st.setPolicy i p).setPolicy i p' = st.setPolicy i p' := by
  rw [setPolicy, setPolicy, setPolicy, List.set_set]

theorem grows_self (st : Store) (i : Nat) : st.Grows i ∅ st where
  admitted := (Finset.union_empty _).symm
  isAdmitted _ := (or_iff_left (Finset.notMem_empty _)).symm
  kept := ⟨(st.policy i).names, (setPolicy_policy st i).symm⟩

theorem grows_join (hi : i - 1 < st.policies.length) (batch : List String) :
    st.Grows i batch.toFinset (st.setPolicy i ((st.policy i).join batch)) where
  admitted := by
    rw [admitted, policy_setPolicy hi, Policy.toFinset_names_join]
    rfl
  isAdmitted name := by rw [policy_setPolicy hi, Policy.isAdmitted_join, List.mem_toFinset]
  kept := ⟨_, rfl⟩

theorem Grows.trans (h : st.Grows i added st') (h' : st'.Grows i added' st'')
    (hi : i - 1 < st.policies.length) : st.Grows i (added ∪ added') st'' where
  admitted := by rw [h'.admitted, h.admitted, Finset.union_assoc]
  isAdmitted name := by rw [h'.isAdmitted, h.isAdmitted, or_assoc, Finset.mem_union]
  kept := by
    obtain ⟨names, rfl⟩ := h.kept
    obtain ⟨names', rfl⟩ := h'.kept
    rw [setPolicy_setPolicy, policy_setPolicy hi]
    exact ⟨names', rfl⟩

theorem Grows.sdiff (h : st.Grows i added st') :
    st'.admitted i \ st.admitted i = added \ st.admitted i := by
  rw [h.admitted, Finset.union_sdiff_left]

theorem Grows.card (h : st.Grows i added st') :
    (st'.admitted i).card = (st.admitted i).card + (added \ st.admitted i).card := by
  rw [h.admitted, ← Finset.union_sdiff_self_eq_union]
  exact Finset.card_union_of_disjoint Finset.disjoint_sdiff

/-- Policies list names in increasing order. -/
def Listed (st : Store) : Prop := ∀ p ∈ st.policies, Ordered.Increasing compare p.names

theorem Listed.policy (h : st.Listed) (i : Nat) : Ordered.Increasing compare (st.policy i).names := by
  rw [Store.policy, List.getD_eq_getElem?_getD]
  cases hp : st.policies[i - 1]? with
  | none => exact List.Pairwise.nil
  | some p => exact h p (List.mem_of_getElem? hp)

theorem Listed.setPolicy (h : st.Listed) {p : Policy} (hp : Ordered.Increasing compare p.names)
    (i : Nat) : (st.setPolicy i p).Listed := by
  intro p' hp'
  rcases List.mem_or_eq_of_mem_set hp' with hp' | rfl
  · exact h p' hp'
  · exact hp

theorem Listed.concat (h : st.Listed) (id : Nat) (all : Bool) :
    Store.Listed { st with policies := st.policies ++ [.new id all] } := by
  intro p hp
  rcases List.mem_append.1 hp with hp | hp
  · exact h p hp
  · obtain rfl := List.mem_singleton.1 hp
    exact List.Pairwise.nil

end Store

namespace Draft

/-- The policy of the draft keeps this property whatever comes of the step. -/
def Keeps {α : Type} (P : Policy → Prop) (x : Drafting α) : Prop :=
  ∀ d, P d.policy → P (runOn x d).2.policy

variable {α β : Type} {P : Policy → Prop} {x : Drafting α} {f : α → Drafting β}

theorem Keeps.bind (hx : Keeps P x) (hf : ∀ a, Keeps P (f a)) : Keeps P (x >>= f) := by
  intro d hd
  have ht := hx d hd
  rw [runOn_bind]
  rcases hrun : runOn x d with ⟨e | a, t⟩
  · rw [hrun] at ht
    exact ht
  · rw [hrun] at ht
    exact hf a t ht

theorem keeps_forM {f : α → Drafting PUnit} (hf : ∀ a, Keeps P (f a)) (as : List α) :
    Keeps P (as.forM f) := by
  induction as with
  | nil => exact fun d hd => hd
  | cons a as ih =>
    rw [List.forM_eq_forM, List.forM_cons]
    exact (hf a).bind fun _ => ih

theorem keeps_add (replace : Bool) (s : Serializer) : Keeps P (add replace s) := by
  intro d hd
  rw [runOn_add]
  cases d.registry.add replace s with
  | error e => exact hd
  | ok p => exact hd

theorem keeps_contribute (contributor : String) (s : Serializer) : Keeps P (contribute contributor s) := by
  intro d hd
  obtain ⟨log, hlog⟩ := runOn_contribute contributor s d
  rw [hlog]
  exact hd

theorem keeps_allowAll (hP : ∀ p batch, P p → P (p.join batch)) (ws : List (String × List String)) :
    Keeps P (allowAll ws) := by
  induction ws with
  | nil => exact fun d hd => hd
  | cons w ws ih =>
    intro d hd
    rw [runOn_allowAll_cons]
    by_cases hw : Policy.repeated w.2 = []
    · rw [if_pos hw]
      exact ih _ (hP _ _ hd)
    · rw [if_neg hw]
      exact hd

end Draft

theorem Plugins.keeps_apply {P : Policy → Prop} (hP : ∀ p batch, P p → P (p.join batch)) (p : Plugins)
    (key : Serializer) : Draft.Keeps P (p.apply key) := by
  rw [apply_eq]
  refine (Draft.keeps_forM (Draft.keeps_add false) _).bind fun _ => ?_
  refine (Draft.keeps_allowAll hP _).bind fun _ => ?_
  refine Draft.keeps_forM ?_ p.serializers
  rintro ⟨contributor, s⟩
  exact Draft.keeps_contribute contributor s

namespace Call

variable {st st' : Store} {i n : Nat} {batch : List String}

/-- Why a batch is rejected: for the names that it repeats, in order and once each, or else for those of
its names that are barred, as they stand in it. -/
inductive Rejection (barred : Finset String) (batch : List String) : Abort → Prop
  | repeated {names : List String} (hbatch : ¬ batch.Nodup) (hsorted : names.Pairwise (· < ·))
      (hnames : ∀ name, name ∈ names ↔ List.Duplicate name batch) :
      Rejection barred batch (.error (.duplicateAdmission names))
  | barred {names : List String} (hbatch : batch.Nodup) (hne : names ≠ [])
      (hsub : names.Sublist batch) (hnames : ∀ name, name ∈ names ↔ name ∈ batch ∧ name ∈ barred) :
      Rejection barred batch (.error (.duplicateAdmission names))

/-- What comes of a batch if some names are barred: it is rejected and the store is as before, or the
policy lists all its names. -/
inductive Batched {α : Type} (st : Store) (i : Nat) (barred : Finset String) (batch : List String) :
    Except Abort α × Store → Prop
  | rejected {e : Abort} (h : Rejection barred batch e) : Batched st i barred batch (.error e, st)
  | listed {a : α} {st' : Store} (hbatch : batch.Nodup) (hbarred : ∀ name ∈ batch, name ∉ barred)
      (h : st.Grows i batch.toFinset st') : Batched st i barred batch (.ok a, st')

theorem Batched.fails_iff {α : Type} {barred : Finset String} {out : Except Abort α × Store}
    (h : Batched st i barred batch out) :
    (∃ e, out.1 = .error e) ↔ ¬ batch.Nodup ∨ ∃ name ∈ batch, name ∈ barred := by
  cases h with
  | rejected h =>
    refine ⟨fun _ => ?_, fun _ => ⟨_, rfl⟩⟩
    cases h with
    | repeated hbatch => exact .inl hbatch
    | barred _ hne _ hnames =>
      obtain ⟨name, hname⟩ := List.exists_mem_of_ne_nil _ hne
      exact .inr ⟨name, (hnames name).1 hname⟩
  | listed hbatch hbarred =>
    constructor
    · rintro ⟨e, he⟩
      cases he
    · rintro (h | ⟨name, hname, hno⟩)
      · exact absurd hbatch h
      · exact absurd hno (hbarred name hname)

theorem rejection_repeated {barred : Finset String} (h : Policy.repeated batch ≠ []) :
    Rejection barred batch (.error (.duplicateAdmission (Policy.repeated batch))) :=
  .repeated (mt Policy.repeated_eq_nil_iff.2 h) (Policy.sorted_repeated batch) fun _ =>
    Policy.mem_repeated

theorem batched_allow (hi : i - 1 < st.policies.length) (batch : List String) :
    Batched st i (st.admitted i) batch (runOn (allow i batch) st) := by
  rw [allow, runOn_get_bind, runOn_bind, runOn_liftError, Policy.allow]
  by_cases hrepeated : Policy.repeated batch = []
  · have hbatch := Policy.repeated_eq_nil_iff.1 hrepeated
    rw [if_neg (not_not_intro hrepeated)]
    by_cases hclash : batch.filter (st.policy i).names.contains = []
    · rw [if_neg (not_not_intro hclash)]
      refine .listed hbatch (fun name hname => ?_) (Store.grows_join hi batch)
      simpa [Store.admitted] using List.filter_eq_nil_iff.1 hclash name hname
    · rw [if_pos hclash]
      refine .rejected (.barred hbatch hclash List.filter_sublist fun name => ?_)
      rw [List.mem_filter, List.contains_iff_mem, Store.admitted, List.mem_toFinset]
  · rw [if_pos hrepeated]
    exact .rejected (rejection_repeated hrepeated)

theorem runOn_allowMissing_of_nodup (h : batch.Nodup) (i : Nat) (st : Store) :
    runOn (allowMissing i batch) st =
      (.ok (((st.policy i).join batch).names.length - (st.policy i).names.length),
        st.setPolicy i ((st.policy i).join batch)) := by
  rw [allowMissing, runOn_get_bind, runOn_bind, runOn_liftError, Policy.allowMissing,
    if_neg (not_not_intro (Policy.repeated_eq_nil_iff.2 h))]
  rfl

theorem runOn_allowMissing_of_not_nodup (h : ¬ batch.Nodup) (i : Nat) (st : Store) :
    runOn (allowMissing i batch) st =
      (.error (.error (.duplicateAdmission (Policy.repeated batch))), st) := by
  rw [allowMissing, runOn_get_bind, runOn_bind, runOn_liftError, Policy.allowMissing,
    if_pos (mt Policy.repeated_eq_nil_iff.1 h)]
  rfl

theorem batched_allowMissing (hi : i - 1 < st.policies.length) (batch : List String) :
    Batched st i ∅ batch (runOn (allowMissing i batch) st) := by
  by_cases hbatch : batch.Nodup
  · rw [runOn_allowMissing_of_nodup hbatch]
    exact .listed hbatch (fun name _ => Finset.notMem_empty name) (Store.grows_join hi batch)
  · rw [runOn_allowMissing_of_not_nodup hbatch]
    exact .rejected (rejection_repeated (mt Policy.repeated_eq_nil_iff.1 hbatch))

theorem count_allowMissing (hst : st.Listed) (h : runOn (allowMissing i batch) st = (.ok n, st')) :
    n = (batch.toFinset \ st.admitted i).card := by
  by_cases hbatch : batch.Nodup
  · rw [runOn_allowMissing_of_nodup hbatch, Policy.length_names_join (hst.policy i),
      Nat.add_sub_cancel_left] at h
    exact (Except.ok.inj (Prod.mk.inj h).1).symm
  · rw [runOn_allowMissing_of_not_nodup hbatch] at h
    cases h

theorem grows_of_allowMissing (hi : i - 1 < st.policies.length)
    (h : runOn (allowMissing i batch) st = (.ok n, st')) : st.Grows i batch.toFinset st' := by
  have hbatched := batched_allowMissing hi batch
  rw [h] at hbatched
  cases hbatched with
  | listed _ _ hgrows => exact hgrows

theorem listed_allowMissing (hst : st.Listed) (i : Nat) (batch : List String) :
    (runOn (allowMissing i batch) st).2.Listed := by
  by_cases hbatch : batch.Nodup
  · rw [runOn_allowMissing_of_nodup hbatch]
    exact hst.setPolicy (Policy.increasing_names_join (hst.policy i) batch) i
  · rw [runOn_allowMissing_of_not_nodup hbatch]
    exact hst

/-- Batches that are admitted one after the other count together what is new. -/
theorem grows_of_foldlM {m : Nat} {ws : List (String × List String)} (hst : st.Listed)
    (hi : i - 1 < st.policies.length)
    (h : runOn (ws.foldlM (fun added w => do return added + (← allowMissing i w.2)) n) st =
      (.ok m, st')) :
    st.Grows i (ws.flatMap (·.2)).toFinset st' ∧
      m = n + ((ws.flatMap (·.2)).toFinset \ st.admitted i).card := by
  induction ws generalizing n st with
  | nil =>
    obtain ⟨hm, rfl⟩ := Prod.mk.inj h
    obtain rfl := Except.ok.inj hm
    exact ⟨st.grows_self i, by simp⟩
  | cons w ws ih =>
    rw [List.foldlM_cons, runOn_bind_eq_ok_iff] at h
    obtain ⟨added, t, hw, h⟩ := h
    rw [runOn_bind_eq_ok_iff] at hw
    obtain ⟨k, t', hw, hpure⟩ := hw
    obtain ⟨hadded, rfl⟩ := Prod.mk.inj hpure
    have hgrows := grows_of_allowMissing hi hw
    have hlisted := listed_allowMissing hst i w.2
    rw [hw] at hlisted
    have hcount : t'.policies.length = st.policies.length := by
      obtain ⟨names, rfl⟩ := hgrows.kept
      exact List.length_set
    obtain ⟨hrest, hm⟩ := ih hlisted (hcount ▸ hi) h
    rw [List.flatMap_cons, List.toFinset_append]
    refine ⟨hgrows.trans hrest hi, ?_⟩
    have hnew : (w.2.toFinset ∪ (ws.flatMap (·.2)).toFinset) \ st.admitted i =
        (w.2.toFinset \ st.admitted i) ∪ ((ws.flatMap (·.2)).toFinset \ t'.admitted i) := by
      ext name
      simp only [hgrows.admitted, Finset.mem_sdiff, Finset.mem_union]
      tauto
    have hapart : Disjoint (w.2.toFinset \ st.admitted i)
        ((ws.flatMap (·.2)).toFinset \ t'.admitted i) := by
      rw [hgrows.admitted, Finset.disjoint_left]
      intro name hname hno
      exact (Finset.mem_sdiff.1 hno).2 (Finset.mem_union_right _ (Finset.mem_sdiff.1 hname).1)
    rw [hnew, Finset.card_union_of_disjoint hapart, ← count_allowMissing hst hw, ← Nat.add_assoc, hm,
      ← Except.ok.inj hadded]

theorem listed_foldlM (hst : st.Listed) (i : Nat) (ws : List (String × List String)) (n : Nat) :
    (runOn (ws.foldlM (fun added w => do return added + (← allowMissing i w.2)) n) st).2.Listed := by
  induction ws generalizing n st with
  | nil => exact hst
  | cons w ws ih =>
    have hlisted := listed_allowMissing hst i w.2
    rw [List.foldlM_cons, runOn_bind, runOn_bind]
    rcases hrun : runOn (allowMissing i w.2) st with ⟨e | k, t⟩
    · rw [hrun] at hlisted
      exact hlisted
    · rw [hrun] at hlisted
      exact ih hlisted (n + k)

theorem listed_allow (hst : st.Listed) (i : Nat) (batch : List String) :
    (runOn (allow i batch) st).2.Listed := by
  rw [allow, runOn_get_bind, runOn_bind, runOn_liftError, Policy.allow]
  split_ifs
  · exact hst
  · exact hst
  · exact hst.setPolicy (Policy.increasing_names_join (hst.policy i) batch) i

end Call

/-- The names in the contributed lists. -/
def Plugins.names (p : Plugins) : Finset String := (p.whitelists.flatMap (·.2)).toFinset

/-- What may happen to policies. -/
inductive PolicyEvent where
  | made (admitsAll : Bool)
  | allowed (i : Nat) (batch : List String)
  | allowedMissing (i : Nat) (batch : List String)
  | allowedContributed (i : Nat) (p : Plugins)
  /-- Registration runs on a factory. -/
  | registered (f : Nat) (p : Plugins) (key : Serializer)

namespace PolicyEvent

variable {st : Store}

/-- What is left of the store, also where the call fails. -/
def leave (st : Store) : PolicyEvent → Store
  | made admitsAll => (runOn (Call.newPolicy admitsAll) st).2
  | allowed i batch => (runOn (Call.allow i batch) st).2
  | allowedMissing i batch => (runOn (Call.allowMissing i batch) st).2
  | allowedContributed i p => (runOn (Call.allowContributed p i) st).2
  | registered f p key => (runOn (Call.draft f (p.apply key)) st).2

/-- Policies go on listing names in increasing order, whatever happens to them. -/
theorem listed_leave (hst : st.Listed) (event : PolicyEvent) : (leave st event).Listed := by
  cases event with
  | made admitsAll => exact hst.concat _ admitsAll
  | allowed i batch => exact Call.listed_allow hst i batch
  | allowedMissing i batch => exact Call.listed_allowMissing hst i batch
  | allowedContributed i p => exact Call.listed_foldlM hst i p.whitelists 0
  | registered f p key =>
    have hkeeps := p.keeps_apply (P := fun p => Ordered.Increasing compare p.names)
      (fun _ batch h => Policy.increasing_names_join h batch) key
      ⟨(st.factory f).registry, st.policy (st.factory f).policy, []⟩ (hst.policy _)
    rcases hd : runOn (p.apply key)
      ⟨(st.factory f).registry, st.policy (st.factory f).policy, []⟩ with ⟨r, d⟩
    rw [hd] at hkeeps
    rw [leave, Call.runOn_draft rfl hd]
    have hset : (st.setFactory f { st.factory f with registry := d.registry }).Listed := hst
    exact hset.setPolicy hkeeps _

theorem listed_leaveAll (hst : st.Listed) (events : List PolicyEvent) :
    (events.foldl leave st).Listed := by
  induction events generalizing st with
  | nil => exact hst
  | cons event events ih => exact ih (listed_leave hst event)

end PolicyEvent

namespace Call

/-- Names are admitted in whole batches. Whatever has happened to policies, a batch of names that are not
to be admitted already fails exactly if it repeats a name or has one that is; a batch of names of which the
admitted ones are passed over fails exactly if it repeats a name. What fails changes nothing and says
which names are to blame. What succeeds adds the batch to the policy, and the new names are counted; so
they are where all contributed names are admitted. -/
theorem allow_whole_batches {st₀ : Store} (hnone : st₀.policies = []) (events : List PolicyEvent)
    {i : Nat} (hpos : 0 < i) (hi : i ≤ (events.foldl PolicyEvent.leave st₀).policies.length)
    (batch : List String) (p : Plugins) :
    let st := events.foldl PolicyEvent.leave st₀
    ((∃ e, (runOn (allow i batch) st).1 = .error e) ↔
        ¬ batch.Nodup ∨ ∃ name ∈ batch, name ∈ st.admitted i) ∧
      Batched st i (st.admitted i) batch (runOn (allow i batch) st) ∧
      ((∃ e, (runOn (allowMissing i batch) st).1 = .error e) ↔ ¬ batch.Nodup) ∧
      Batched st i ∅ batch (runOn (allowMissing i batch) st) ∧
      (∀ n st', runOn (allowMissing i batch) st = (.ok n, st') →
        n = (batch.toFinset \ st.admitted i).card) ∧
      ∀ n st', runOn (allowContributed p i) st = (.ok n, st') →
        st.Grows i p.names st' ∧ (st'.admitted i).card = (st.admitted i).card + n ∧
          (st'.admitted i \ st.admitted i).card = n ∧ st'.admitted i \ st.admitted i ⊆ p.names := by
  intro st
  have hlisted : st.Listed := by
    refine PolicyEvent.listed_leaveAll (fun p hp => ?_) events
    rw [hnone] at hp
    cases hp
  have hlt : i - 1 < st.policies.length := Nat.lt_of_lt_of_le (Nat.sub_one_lt_of_lt hpos) hi
  have hallow := batched_allow hlt batch
  have hmissing := batched_allowMissing hlt batch
  refine ⟨hallow.fails_iff, hallow, ?_, hmissing, fun n st' => count_allowMissing hlisted,
    fun n st' h => ?_⟩
  · rw [hmissing.fails_iff]
    simp only [Finset.notMem_empty, and_false, exists_false, or_false]
  · obtain ⟨hgrows, hn⟩ := grows_of_foldlM hlisted hlt h
    rw [Nat.zero_add] at hn
    refine ⟨hgrows, ?_, ?_, ?_⟩
    · rw [hgrows.card, hn]
    · rw [hgrows.sdiff, hn]
    · rw [hgrows.sdiff]
      exact Finset.sdiff_subset

def listing : List PolicyEvent :=
  [.made false, .allowed 1 ["app.Payment", "app.Invoice"], .allowed 1 ["app.Order", "app.Payment"]]

def listed : Store := listing.foldl PolicyEvent.leave (.empty [])

theorem allow_whole_batches_listed :
    (Store.empty []).policies = [] ∧ 0 < 1 ∧ 1 ≤ listed.policies.length ∧
      (∃ e, (runOn (allow 1 ["app.Order", "app.Payment"]) listed).1 = .error e) ∧
      ∃ st', runOn (allowContributed .new 1) listed = (.ok 2, st') ∧
        (st'.admitted 1).card = (listed.admitted 1).card + 2 := by
  have hbound : 1 ≤ listed.policies.length := by decide +kernel
  have hlisted : "app.Payment" ∈ listed.admitted 1 := by decide +kernel
  have hrun : (runOn (allowContributed .new 1) listed).1.toOption = some 2 := by decide +kernel
  obtain ⟨hfails, -, -, -, -, hcontributed⟩ :=
    allow_whole_batches rfl listing Nat.one_pos hbound ["app.Order", "app.Payment"] .new
  refine ⟨rfl, Nat.one_pos, hbound, hfails.2 (.inr ⟨"app.Payment", by simp, hlisted⟩), ?_⟩
  rcases h : runOn (allowContributed .new 1) listed with ⟨e | n, st'⟩
  · rw [h] at hrun
    cases hrun
  · rw [h] at hrun
    obtain rfl := Option.some.inj hrun
    exact ⟨st', rfl, (hcontributed 2 st' h).2.1⟩

end Call

end DurableFlow
