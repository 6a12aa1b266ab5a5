import DurableFlow.Proofs.Environment.Registration

/-!
# What registrations leave bound

Serializers are registered one after the other, some as contributions and some as defaults, and some of
them fail. What they leave bound by type and by descriptor is the same. A type has the serializer that was
contributed for it last, or its first default where none was contributed; so what is contributed for a type
gives way to another contribution only, however often registration runs.
-/

namespace DurableFlow

/-- A serializer to be registered; `replace` tells if another one of its type gives way. -/
structure Candidate where
  replace : Bool
  serializer : Serializer

namespace Draft

variable {d : Draft}

/-- What a registration leaves, also if it fails. -/
def leave (d : Draft) (c : Candidate) : Draft := (runOn (register c.replace c.serializer) d).2

def leaveAll (cs : List Candidate) (d : Draft) : Draft := cs.foldl leave d

def outcomes : List Candidate → Draft → List (Except SerializationError Registration)
  | [], _ => []
  | c :: cs, d => (runOn (register c.replace c.serializer) d).1 :: outcomes cs (d.leave c)

/-- The serializers for a type whose registration, as contributions or as defaults, does not fail. -/
def registered (replace : Bool) (t : Ty) (cs : List Candidate) (d : Draft) : List Serializer :=
  ((cs.zip (outcomes cs d)).filter fun a =>
    a.1.replace = replace ∧ a.1.serializer.target = t ∧ a.2.isOk).map (·.1.serializer)

theorem leave_eq (d : Draft) (c : Candidate) :
    d.leave c = match d.registry.add c.replace c.serializer with
      | .error _ => d
      | .ok (r, o) => ⟨r, d.policy, d.log ++ notes c.serializer o⟩ := by
  rw [leave, runOn_register]
  cases d.registry.add c.replace c.serializer with
  | error e => rfl
  | ok p => rfl

theorem sound_leave (c : Candidate) (hc : d.registry.Consistent) (hd : d.registry.Distinct) :
    (d.leave c).registry.Consistent ∧ (d.leave c).registry.Distinct := by
  rw [leave_eq]
  cases ha : d.registry.add c.replace c.serializer with
  | error e => exact ⟨hc, hd⟩
  | ok p => exact ⟨hc.add ha, hd.add ha⟩

theorem sound_leaveAll (cs : List Candidate) (hc : d.registry.Consistent) (hd : d.registry.Distinct) :
    (leaveAll cs d).registry.Consistent ∧ (leaveAll cs d).registry.Distinct := by
  induction cs generalizing d with
  | nil => exact ⟨hc, hd⟩
  | cons c cs ih =>
    obtain ⟨hc, hd⟩ := sound_leave c hc hd
    exact ih hc hd

/-- Nothing changes where a registration fails, finds its serializer bound or keeps another one. -/
theorem runOn_register_eq (replace : Bool) (s : Serializer) (d : Draft)
    (h : (∃ e, (runOn (register replace s) d).1 = .error e) ∨
      (runOn (register replace s) d).1 = .ok .unchanged ∨
      ∃ id, (runOn (register replace s) d).1 = .ok (.kept id)) :
    (runOn (register replace s) d).2 = d := by
  rw [runOn_register] at h ⊢
  cases ha : d.registry.add replace s with
  | error e => rfl
  | ok p =>
    obtain ⟨r, o⟩ := p
    rw [ha] at h
    have ho : o = .unchanged ∨ ∃ id, o = .kept id := by simpa using h
    obtain rfl := Registry.eq_of_add ha ho
    have hnotes : notes s o = [] := by rcases ho with rfl | ⟨id, rfl⟩ <;> rfl
    simp only [hnotes, List.append_nil]

/-- Whatever serializers are registered, as contributions or as defaults, and whether they fail or not: what
is then bound by type and what is bound by descriptor are the same serializers, each under its own type and
descriptor, and there is one descriptor for each type. A further registration that finds its serializer
bound, keeps another one or finds its descriptor taken leaves everything as it is. -/
theorem bindings_correspond (policy : Policy) (log : List LogEvent) (cs : List Candidate) :
    let d := leaveAll cs ⟨.empty, policy, log⟩
    let r := d.registry
    (∀ t s, r.byType.get? t = some s →
      s.target = t ∧ r.byDescriptor.get? s.descriptor = some s) ∧
    (∀ name s, r.byDescriptor.get? name = some s →
      s.descriptor = name ∧ r.byType.get? s.target = some s) ∧
    (∀ name, name ∈ r.descriptors ↔ (r.byDescriptor.get? name).isSome) ∧
    r.descriptors.Nodup ∧ r.descriptors.length = r.size ∧
    ∀ replace s, ((runOn (register replace s) d).1 = .ok .unchanged ∨
        (∃ id, (runOn (register replace s) d).1 = .ok (.kept id)) ∨
        ∃ name, (runOn (register replace s) d).1 = .error (.descriptorConflict name)) →
      (runOn (register replace s) d).2 = d := by
  intro d r
  obtain ⟨hc, hd⟩ : r.Consistent ∧ r.Distinct :=
    sound_leaveAll cs Registry.consistent_empty Registry.distinct_empty
  refine ⟨fun t s hs => ⟨hc.target t s hs, hc.byDescriptor_of_byType hs⟩,
    fun name s hs => (hc.byDescriptor_iff name s).1 hs, fun name => Registry.mem_descriptors_iff,
    hd.nodup_descriptors, hc.length_descriptors hd,
    fun replace s h => runOn_register_eq replace s d ?_⟩
  rcases h with h | h | ⟨name, h⟩
  · exact .inr (.inl h)
  · exact .inr (.inr h)
  · exact .inl ⟨_, h⟩

/-- The descriptor of the first is given up for that of the second, and goes to another type. -/
def exchange : List Candidate :=
  [⟨false, Sample.celsiusA⟩, ⟨true, Sample.centigrade⟩, ⟨false, Sample.imposter⟩]

def exchanged : Draft := leaveAll exchange Plugins.blank

theorem bindings_correspond_exchange :
    exchanged.registry.descriptors.Nodup ∧ exchanged.registry.descriptors.length = 2 ∧
      (runOn (register true Sample.celsiusA) exchanged).1 =
        .error (.descriptorConflict "app.Celsius") ∧
      (runOn (register true Sample.celsiusA) exchanged).2 = exchanged := by
  obtain ⟨-, -, -, hnodup, hlength, hsame⟩ := bindings_correspond (.new 1 false) [] exchange
  have hsize : exchanged.registry.size = 2 := by decide +kernel
  have htaken : exchanged.registry.conflicts Sample.celsiusA = true := by decide +kernel
  have hconflict : (runOn (register true Sample.celsiusA) exchanged).1 =
      .error (.descriptorConflict "app.Celsius") := by
    rw [runOn_register, Registry.add_of_conflicts true htaken]
    rfl
  exact ⟨hnodup, hlength.trans hsize, hconflict,
    hsame true Sample.celsiusA (.inr (.inr ⟨_, hconflict⟩))⟩

theorem registered_cons (replace : Bool) (t : Ty) (c : Candidate) (cs : List Candidate) (d : Draft) :
    registered replace t (c :: cs) d =
      registered replace t [c] d ++ registered replace t cs (d.leave c) := by
  simp only [registered, outcomes, List.zip_cons_cons, List.zip_nil_right, List.filter_cons,
    List.filter_nil]
  split_ifs <;> rfl

theorem registered_singleton (replace : Bool) (t : Ty) (c : Candidate) (d : Draft) :
    registered replace t [c] d =
      if c.replace = replace ∧ c.serializer.target = t ∧
        (d.registry.add c.replace c.serializer).isOk then [c.serializer] else [] := by
  have hok : (runOn (register c.replace c.serializer) d).1.isOk =
      (d.registry.add c.replace c.serializer).isOk := by
    rw [runOn_register]
    cases d.registry.add c.replace c.serializer with
    | error e => rfl
    | ok p => rfl
  simp only [registered, outcomes, List.zip_cons_cons, List.zip_nil_right, List.filter_cons,
    List.filter_nil, hok, decide_eq_true_eq]
  split_ifs <;> rfl

theorem id_leave (d : Draft) (c : Candidate) (t : Ty) :
    ((d.leave c).registry.byType.get? t).map (·.id) =
      ((registered true t [c] d).getLast?.or
        ((d.registry.byType.get? t).or (registered false t [c] d).head?)).map (·.id) := by
  rw [registered_singleton, registered_singleton, leave_eq]
  obtain ⟨replace, s⟩ := c
  cases ha : d.registry.add replace s with
  | error e => simp [Except.isOk, Except.toBool]
  | ok p =>
    obtain ⟨r, o⟩ := p
    by_cases ht : s.target = t
    · subst ht
      cases replace with
      | false => simp [Except.isOk, Except.toBool, Registry.byType_add_false ha]
      | true => simpa [Except.isOk, Except.toBool] using Registry.id_add_true ha
    · simp [ht, Registry.byType_add_of_ne ha ht]

/-- A type has the last contribution for it that did not fail, or else what it had before, or else the
first default for it that did not fail. -/
theorem id_leaveAll (cs : List Candidate) (d : Draft) (t : Ty) :
    ((leaveAll cs d).registry.byType.get? t).map (·.id) =
      ((registered true t cs d).getLast?.or
        ((d.registry.byType.get? t).or (registered false t cs d).head?)).map (·.id) := by
  induction cs generalizing d with
  | nil => simp [leaveAll, registered]
  | cons c cs ih =>
    have hrest := ih (d.leave c)
    rw [Option.map_or, Option.map_or, id_leave] at hrest
    rw [registered_cons true, registered_cons false, List.getLast?_append, List.head?_append]
    refine hrest.trans ?_
    simp only [Option.map_or, Option.or_assoc]

variable {α β : Type} {x : Drafting α} {f : α → Drafting β} {given : List Serializer}

/-- After the step a type that had a serializer has the same one, or one of the given. -/
def GivesWayTo (given : List Serializer) (x : Drafting α) : Prop :=
  ∀ d t s, d.registry.byType.get? t = some s →
    ∃ s', (runOn x d).2.registry.byType.get? t = some s' ∧ (s' = s ∨ s' ∈ given)

theorem GivesWayTo.bind (hx : GivesWayTo given x) (hf : ∀ a, GivesWayTo given (f a)) :
    GivesWayTo given (x >>= f) := by
  intro d t s hs
  obtain ⟨s', hs', hgiven'⟩ := hx d t s hs
  rw [runOn_bind]
  rcases hrun : runOn x d with ⟨e | a, d'⟩
  · rw [hrun] at hs'
    exact ⟨s', hs', hgiven'⟩
  · rw [hrun] at hs'
    obtain ⟨s'', hs'', hgiven''⟩ := hf a d' t s' hs'
    refine ⟨s'', hs'', ?_⟩
    rcases hgiven'' with rfl | hgiven''
    · exact hgiven'
    · exact .inr hgiven''

theorem givesWayTo_forM {f : α → Drafting PUnit} {as : List α} (hf : ∀ a ∈ as, GivesWayTo given (f a)) :
    GivesWayTo given (as.forM f) := by
  induction as with
  | nil => exact fun d t s hs => ⟨s, hs, .inl rfl⟩
  | cons a as ih =>
    rw [List.forM_eq_forM, List.forM_cons]
    exact (hf a List.mem_cons_self).bind fun _ => ih fun b hb => hf b (List.mem_cons_of_mem _ hb)

theorem givesWayTo_add_false (c : Serializer) : GivesWayTo given (add false c) := by
  intro d t s hs
  refine ⟨s, ?_, .inl rfl⟩
  rw [runOn_add]
  cases ha : d.registry.add false c with
  | error e => exact hs
  | ok p =>
    by_cases ht : c.target = t
    · subst ht
      rw [Registry.byType_add_false ha, hs, Option.some_or]
    · rw [Registry.byType_add_of_ne ha ht, hs]

theorem givesWayTo_contribute (contributor : String) {c : Serializer} (hc : c ∈ given) :
    GivesWayTo given (contribute contributor c) := by
  intro d t s hs
  obtain ⟨log, hrun⟩ := runOn_contribute contributor c d
  rw [hrun, Registry.offer]
  split_ifs
  · rw [Registry.byType_bind]
    split_ifs
    · exact ⟨c, rfl, .inr hc⟩
    · exact ⟨s, hs, .inl rfl⟩
  · exact ⟨s, hs, .inl rfl⟩

theorem givesWayTo_allowAll (ws : List (String × List String)) : GivesWayTo given (allowAll ws) := by
  induction ws with
  | nil => exact fun d t s hs => ⟨s, hs, .inl rfl⟩
  | cons w ws ih =>
    intro d t s hs
    rw [runOn_allowAll_cons]
    split_ifs
    · exact ih _ t s hs
    · exact ⟨s, hs, .inl rfl⟩

end Draft

/-- What may happen to the plugins of a scheme and to one of its factories. -/
inductive PluginEvent where
  | whitelist (contributor : String) (names : List String)
  | serializer (contributor : String) (s : Serializer)
  /-- Registration runs on the factory, whatever comes of it. -/
  | registration (key : Serializer)

namespace PluginEvent

variable {s : Serializer} {t : Ty}

def leave : Plugins × Draft → PluginEvent → Plugins × Draft
  | (p, d), whitelist contributor names => (p.addWhitelist contributor names, d)
  | (p, d), serializer contributor s => (p.addSerializer contributor s, d)
  | (p, d), registration key => (p, (runOn (p.apply key) d).2)

theorem givesWayTo_apply (p : Plugins) (key : Serializer) :
    Draft.GivesWayTo p.contributions (p.apply key) := by
  rw [Plugins.apply_eq]
  refine (Draft.givesWayTo_forM fun s _ => Draft.givesWayTo_add_false s).bind fun _ => ?_
  refine (Draft.givesWayTo_allowAll _).bind fun _ => Draft.givesWayTo_forM ?_
  rintro ⟨contributor, s⟩ hs
  exact Draft.givesWayTo_contribute contributor (List.mem_map_of_mem hs)

theorem contributions_leave (st : Plugins × Draft) (event : PluginEvent) :
    st.1.contributions ⊆ (leave st event).1.contributions := by
  cases event with
  | whitelist | registration => exact List.Subset.refl _
  | serializer contributor s =>
    rw [leave, Plugins.contributions, Plugins.contributions, Plugins.addSerializer, List.map_append]
    exact List.subset_append_left _ _

theorem bound_leave (st : Plugins × Draft) (event : PluginEvent)
    (hs : st.2.registry.byType.get? t = some s) :
    ∃ s', (leave st event).2.registry.byType.get? t = some s' ∧
      (s' = s ∨ s' ∈ (leave st event).1.contributions) := by
  cases event with
  | whitelist | serializer => exact ⟨s, hs, .inl rfl⟩
  | registration key => exact givesWayTo_apply st.1 key st.2 t s hs

theorem bound_leaveAll (st : Plugins × Draft) (events : List PluginEvent)
    (hs : st.2.registry.byType.get? t = some s) :
    st.1.contributions ⊆ (events.foldl leave st).1.contributions ∧
      ∃ s', (events.foldl leave st).2.registry.byType.get? t = some s' ∧
        (s' = s ∨ s' ∈ (events.foldl leave st).1.contributions) := by
  induction events generalizing st s with
  | nil => exact ⟨List.Subset.refl _, s, hs, .inl rfl⟩
  | cons event events ih =>
    obtain ⟨s', hs', hgiven'⟩ := bound_leave st event hs
    obtain ⟨hkept, s'', hs'', hgiven''⟩ := ih (leave st event) hs'
    refine ⟨List.Subset.trans (contributions_leave st event) hkept, s'', hs'', ?_⟩
    rcases hgiven'' with rfl | hgiven''
    · exact hgiven'.imp id fun h => hkept h
    · exact .inr hgiven''

/-- Contributions come before defaults. Whatever serializers are registered and whether they fail or not, a
type has, by its id, the last contribution for it that did not fail, or else the first default for it that
did not fail. And whatever is contributed in between and however often registration runs, with or without
success, a type that has a contributed serializer goes on having a contributed one, the same or another;
likewise if serializers of one id are taken for the same. -/
theorem contributions_shadow :
    (∀ (policy : Policy) (log : List LogEvent) (cs : List Candidate) (t : Ty),
      let d : Draft := ⟨.empty, policy, log⟩
      ((Draft.leaveAll cs d).registry.byType.get? t).map (·.id) =
        ((Draft.registered true t cs d).getLast?.or (Draft.registered false t cs d).head?).map (·.id)) ∧
    ∀ (p : Plugins) (d : Draft) (events : List PluginEvent) (t : Ty),
      let after := events.foldl leave (p, d)
      (∀ s ∈ p.contributions, d.registry.byType.get? t = some s →
        ∃ s' ∈ after.1.contributions, after.2.registry.byType.get? t = some s') ∧
      ∀ s ∈ p.contributions, (d.registry.byType.get? t).map (·.id) = some s.id →
        ∃ s' ∈ after.1.contributions, (after.2.registry.byType.get? t).map (·.id) = some s'.id := by
  refine ⟨fun policy log cs t => ?_, fun p d events t => ⟨fun s hs hbound => ?_, fun s hs hid => ?_⟩⟩
  · exact Draft.id_leaveAll cs ⟨.empty, policy, log⟩ t
  · obtain ⟨hkept, s', hs', hgiven⟩ := bound_leaveAll (p, d) events hbound
    rcases hgiven with rfl | hgiven
    · exact ⟨s', hkept hs, hs'⟩
    · exact ⟨s', hgiven, hs'⟩
  · obtain ⟨bound, hbound, hid⟩ := Option.map_eq_some_iff.1 hid
    obtain ⟨hkept, s', hs', hgiven⟩ := bound_leaveAll (p, d) events hbound
    rw [hs', Option.map_some]
    rcases hgiven with rfl | hgiven
    · exact ⟨s, hkept hs, congrArg some hid⟩
    · exact ⟨s', hgiven, rfl⟩

def shadowing : Draft :=
  ⟨Registry.empty.bind { Sample.centigrade with isolated := true }, .new 1 false, []⟩

def unrest : List PluginEvent := [
  .registration Sample.celsiusA, .serializer "app" Sample.imposter,
  .registration Sample.celsiusA, .serializer "app" Sample.celsiusB, .registration Sample.celsiusA]

theorem contributions_shadow_centigrade :
    let after := unrest.foldl leave (Plugins.empty.addSerializer "app" Sample.centigrade, shadowing)
    ∃ s ∈ after.1.contributions, after.2.registry.byType.get? Sample.celsius = some s :=
  (contributions_shadow.2 (Plugins.empty.addSerializer "app" Sample.centigrade) shadowing unrest
    Sample.celsius).1 { Sample.centigrade with isolated := true } List.mem_cons_self
    (Registry.byType_bind _)

end PluginEvent

end DurableFlow
