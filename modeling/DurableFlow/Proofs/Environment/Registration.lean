import DurableFlow.Proofs.Environment.Runs
import DurableFlow.Proofs.Serializer.Registry
import DurableFlow.Proofs.Values.Ordered
import DurableFlow.Sample.Serializers

/-!
# Registration that runs again

Registration fails the second time exactly if the descriptor of a default, lost to a contributed
serializer of the same type, has gone to another type by the first time. Where it does not fail it admits
no further name, and it binds the same exactly if to no type another serializer is bound last.
-/

namespace DurableFlow

namespace Policy

variable {p : Policy}

def joinAll (p : Policy) (ws : List (String × List String)) : Policy :=
  ws.foldl (fun p w => p.join w.2) p

theorem names_joinAll (p : Policy) (ws : List (String × List String)) :
    (p.joinAll ws).names =
      (ws.flatMap (·.2)).foldl (fun names name => Ordered.insert compare name names) p.names := by
  induction ws generalizing p with
  | nil => rfl
  | cons w ws ih =>
    rw [List.flatMap_cons, List.foldl_append]
    exact ih (p.join w.2)

theorem joinAll_eq (p : Policy) (ws : List (String × List String)) :
    p.joinAll ws = { p with names := (p.joinAll ws).names } := by
  induction ws generalizing p with
  | nil => rfl
  | cons w ws ih => exact ih (p.join w.2)

theorem joinAll_joinAll (p : Policy) (ws : List (String × List String)) :
    (p.joinAll ws).joinAll ws = p.joinAll ws := by
  have hnames : ((p.joinAll ws).joinAll ws).names = (p.joinAll ws).names := by
    rw [names_joinAll (p.joinAll ws), names_joinAll p]
    exact Ordered.foldl_insert_eq fun name hname => Ordered.insert_foldl_of_mem hname p.names
  rw [joinAll_eq, hnames]

end Policy

namespace Draft

variable {d d' : Draft}

def notes (s : Serializer) : Registration → List LogEvent
  | .replaced previous =>
    [⟨.info, "serializer replaced", [("previous", previous), ("replacement", s.id)]⟩]
  | _ => []

theorem runOn_register (replace : Bool) (s : Serializer) (d : Draft) :
    runOn (register replace s) d = match d.registry.add replace s with
      | .error e => (.error e, d)
      | .ok (r, o) => (.ok o, ⟨r, d.policy, d.log ++ notes s o⟩) := by
  rw [register, runOn_get_bind]
  rcases d.registry.add replace s with e | ⟨r, o⟩
  · rfl
  · cases o <;> simp only [notes, List.append_nil] <;> rfl

theorem runOn_add (replace : Bool) (s : Serializer) (d : Draft) :
    runOn (add replace s) d = match d.registry.add replace s with
      | .error e => (.error e, d)
      | .ok (r, o) => (.ok (), ⟨r, d.policy, d.log ++ notes s o⟩) := by
  refine (runOn_map (fun _ => ()) (register replace s) d).trans ?_
  rw [runOn_register]
  rcases d.registry.add replace s with e | ⟨r, o⟩
  · rfl
  · rfl

theorem runOn_add_false_of_bound {s : Serializer} (hb : (d.registry.byType.get? s.target).isSome) :
    runOn (add false s) d = (if d.registry.conflicts s then .error (.descriptorConflict s.descriptor)
      else .ok (), d) := by
  rw [runOn_add]
  by_cases hc : d.registry.conflicts s = true
  · rw [if_pos hc, Registry.add_of_conflicts false hc]
  · obtain ⟨o, ho, hne⟩ := Registry.add_false_of_bound (Bool.not_eq_true _ ▸ hc) hb
    rw [if_neg hc, ho]
    cases o with
    | replaced id => exact absurd rfl (hne id)
    | added | unchanged | kept => simp [notes]

theorem runOn_addAll_of_bound (ss : List Serializer)
    (hb : ∀ s ∈ ss, (d.registry.byType.get? s.target).isSome) :
    runOn (ss.forM (add false)) d = (match ss.find? d.registry.conflicts with
      | some s => .error (.descriptorConflict s.descriptor)
      | none => .ok (), d) := by
  induction ss with
  | nil => rfl
  | cons s ss ih =>
    have hs := runOn_add_false_of_bound (hb s List.mem_cons_self)
    rw [runOn_forM_cons, hs, List.find?_cons]
    cases hc : d.registry.conflicts s with
    | true => rfl
    | false => exact ih fun s hs => hb s (List.mem_cons_of_mem _ hs)

theorem of_runOn_addAll {ss : List Serializer} (h : runOn (ss.forM (add false)) d = (.ok (), d')) :
    d'.policy = d.policy ∧ (d.registry.Consistent → d'.registry.Consistent) ∧
      ∀ t, (t ∈ ss.map (·.target) ∨ (d.registry.byType.get? t).isSome) →
        (d'.registry.byType.get? t).isSome := by
  induction ss generalizing d with
  | nil =>
    obtain ⟨-, rfl⟩ := Prod.mk.inj h
    exact ⟨rfl, id, fun t ht => ht.resolve_left List.not_mem_nil⟩
  | cons s ss ih =>
    rw [runOn_forM_cons, runOn_add] at h
    cases ha : d.registry.add false s with
    | error e =>
      rw [ha] at h
      cases h
    | ok p =>
      obtain ⟨r, o⟩ := p
      rw [ha] at h
      obtain ⟨hpolicy, hconsistent, hbound⟩ := ih h
      refine ⟨hpolicy, fun hc => hconsistent (hc.add ha), fun t ht => hbound t ?_⟩
      rw [List.map_cons, List.mem_cons, or_assoc] at ht
      rcases ht with rfl | ht | ht
      · exact .inr (Registry.bound_of_add ha (.inl rfl))
      · exact .inl ht
      · exact .inr (Registry.bound_of_add ha (.inr ht))

theorem runOn_allowAll_cons (w : String × List String) (ws : List (String × List String)) (d : Draft) :
    runOn (allowAll (w :: ws)) d =
      if Policy.repeated w.2 = [] then runOn (allowAll ws) { d with policy := d.policy.join w.2 }
      else (.error (.duplicateAdmission (Policy.repeated w.2)), d) := by
  rw [allowAll, runOn_get_bind]
  by_cases hw : Policy.repeated w.2 = []
  · have hallow : d.policy.allowMissing w.2 =
        .ok (d.policy.join w.2, (d.policy.join w.2).names.length - d.policy.names.length) :=
      if_neg (not_not_intro hw)
    rw [if_pos hw, hallow]
    rfl
  · have hallow : d.policy.allowMissing w.2 = .error (.duplicateAdmission (Policy.repeated w.2)) :=
      if_pos hw
    rw [if_neg hw, hallow]
    rfl

theorem runOn_allowAll (ws : List (String × List String))
    (h : ∀ w ∈ ws, Policy.repeated w.2 = []) (d : Draft) :
    runOn (allowAll ws) d = (.ok (), { d with policy := d.policy.joinAll ws }) := by
  induction ws generalizing d with
  | nil => rfl
  | cons w ws ih =>
    rw [runOn_allowAll_cons, if_pos (h w List.mem_cons_self)]
    exact ih (fun w hw => h w (List.mem_cons_of_mem _ hw)) _

theorem repeated_of_runOn_allowAll {ws : List (String × List String)}
    (h : runOn (allowAll ws) d = (.ok (), d')) : ∀ w ∈ ws, Policy.repeated w.2 = [] := by
  induction ws generalizing d with
  | nil => exact fun w hw => nomatch hw
  | cons w ws ih =>
    rw [runOn_allowAll_cons] at h
    by_cases hw : Policy.repeated w.2 = []
    · rw [if_pos hw] at h
      exact fun w' hw' => (List.mem_cons.1 hw').elim (fun he => he ▸ hw) (ih h w')
    · rw [if_neg hw] at h
      cases h

theorem runOn_contribute (contributor : String) (s : Serializer) (d : Draft) :
    ∃ log, runOn (contribute contributor s) d = (.ok (), ⟨d.registry.offer s, d.policy, log⟩) := by
  have hcatch := runOn_tryCatch (add true s)
    (fun e => note ⟨.warn, "skipping plugin serializer", [("source", contributor), ("error", e.message)]⟩) d
  have hadd := d.registry.register_eq (s := s)
  rw [Registry.register] at hadd
  rw [runOn_add, hadd] at hcatch
  rw [contribute]
  by_cases hc : d.registry.conflicts s = true
  · rw [if_pos hc] at hcatch
    rw [Registry.offer_of_conflicts hc]
    exact ⟨_, hcatch⟩
  · rw [if_neg hc] at hcatch
    exact ⟨_, hcatch⟩

theorem runOn_contributeAll (cs : List (String × Serializer)) (d : Draft) :
    ∃ log, runOn (cs.forM fun (contributor, s) => contribute contributor s) d =
      (.ok (), ⟨d.registry.offerAll (cs.map (·.2)), d.policy, log⟩) := by
  induction cs generalizing d with
  | nil => exact ⟨d.log, rfl⟩
  | cons c cs ih =>
    obtain ⟨log, hc⟩ := runOn_contribute c.1 c.2 d
    obtain ⟨log', hcs⟩ := ih ⟨d.registry.offer c.2, d.policy, log⟩
    exact ⟨log', by rw [runOn_forM_cons, hc]; exact hcs⟩

end Draft

namespace Plugins

variable {p : Plugins} {key : Serializer} {d d₁ d₂ : Draft}

def defaults (key : Serializer) : List Serializer := Builtin.standard ++ key :: Builtin.security

def contributions (p : Plugins) : List Serializer := p.serializers.map (·.2)

theorem apply_eq (p : Plugins) (key : Serializer) :
    p.apply key = (do
      (defaults key).forM (Draft.add false)
      Draft.allowAll p.whitelists
      p.serializers.forM fun (contributor, s) => Draft.contribute contributor s) := by
  simp only [apply, defaults, List.forM_eq_forM, List.forM_append, List.forM_cons, bind_assoc]

/-- What registration that succeeded has done. -/
theorem of_runOn_apply (h : runOn (p.apply key) d = (.ok (), d₁)) :
    (∀ s ∈ defaults key, (d₁.registry.byType.get? s.target).isSome) ∧
      (d.registry.Consistent → d₁.registry.Consistent) ∧
      (∀ w ∈ p.whitelists, Policy.repeated w.2 = []) ∧ d₁.policy = d.policy.joinAll p.whitelists := by
  rw [apply_eq, runOn_bind_eq_ok_iff] at h
  obtain ⟨⟨⟩, d', hdefaults, h⟩ := h
  rw [runOn_bind_eq_ok_iff] at h
  obtain ⟨⟨⟩, d'', hnames, h⟩ := h
  obtain ⟨hpolicy, hconsistent, hbound⟩ := Draft.of_runOn_addAll hdefaults
  have hrepeated := Draft.repeated_of_runOn_allowAll hnames
  obtain ⟨-, rfl⟩ := Prod.mk.inj ((Draft.runOn_allowAll _ hrepeated d').symm.trans hnames)
  obtain ⟨log, hlog⟩ := Draft.runOn_contributeAll p.serializers
    { d' with policy := d'.policy.joinAll p.whitelists }
  obtain ⟨-, rfl⟩ := Prod.mk.inj (hlog.symm.trans h)
  refine ⟨fun s hs => ?_, fun hc => (hconsistent hc).offerAll _, hrepeated, ?_⟩
  · exact Registry.bound_of_offerAll (hbound _ (.inl (List.mem_map_of_mem hs))) _
  · change d'.policy.joinAll p.whitelists = _
    rw [hpolicy]

/-- What registration does after it has succeeded. -/
theorem runOn_apply_again (h : runOn (p.apply key) d = (.ok (), d₁)) :
    ∃ log, runOn (p.apply key) d₁ = match (defaults key).find? d₁.registry.conflicts with
      | some s => (.error (.descriptorConflict s.descriptor), d₁)
      | none => (.ok (), ⟨d₁.registry.offerAll p.contributions, d₁.policy, log⟩) := by
  obtain ⟨hbound, -, hrepeated, hpolicy⟩ := of_runOn_apply h
  have hdefaults := Draft.runOn_addAll_of_bound _ hbound
  have hnames := Draft.runOn_allowAll _ hrepeated d₁
  rw [hpolicy, Policy.joinAll_joinAll, ← hpolicy] at hnames
  obtain ⟨log, hlog⟩ := Draft.runOn_contributeAll p.serializers d₁
  refine ⟨log, ?_⟩
  rw [apply_eq]
  cases hfind : (defaults key).find? d₁.registry.conflicts with
  | some s =>
    rw [hfind] at hdefaults
    exact runOn_bind_error hdefaults
  | none =>
    rw [hfind] at hdefaults
    rw [runOn_bind_ok hdefaults, runOn_bind_ok hnames]
    exact hlog

/-- Registration that succeeded changes nothing when it runs again exactly if no default finds its
descriptor with another type and no contributed serializer ends up in place of another one. It never
admits a further name, and where it fails it is for such a default and changes nothing. -/
theorem apply_again_iff (hc : d.registry.Consistent) (h : runOn (p.apply key) d = (.ok (), d₁)) :
    ((∃ d₂, runOn (p.apply key) d₁ = (.ok (), d₂) ∧
        (∀ t, d₂.registry.byType.get? t = d₁.registry.byType.get? t) ∧
        (∀ name, d₂.registry.byDescriptor.get? name = d₁.registry.byDescriptor.get? name) ∧
        d₂.policy = d₁.policy) ↔
      (∀ s ∈ defaults key, d₁.registry.conflicts s = false) ∧
        d₁.registry.Settled p.contributions) ∧
    (runOn (p.apply key) d₁).2.policy = d₁.policy ∧
    ∀ e d₂, runOn (p.apply key) d₁ = (.error e, d₂) →
      d₂ = d₁ ∧ ∃ s ∈ defaults key, d₁.registry.conflicts s = true ∧
        e = .descriptorConflict s.descriptor := by
  obtain ⟨log, hagain⟩ := runOn_apply_again h
  have hc₁ := (of_runOn_apply h).2.1 hc
  cases hfind : (defaults key).find? d₁.registry.conflicts with
  | some s =>
    have hs := List.find?_some hfind
    have hmem := List.mem_of_find?_eq_some hfind
    rw [hfind] at hagain
    rw [hagain]
    refine ⟨⟨?_, fun hno => ?_⟩, rfl, ?_⟩
    · rintro ⟨d₂, he, -⟩
      cases he
    · rw [hno.1 s hmem] at hs
      cases hs
    · rintro e d₂ he
      obtain ⟨hfault, rfl⟩ := Prod.mk.inj he
      exact ⟨rfl, s, hmem, hs, (Except.error.inj hfault).symm⟩
  | none =>
    have hno : ∀ s ∈ defaults key, d₁.registry.conflicts s = false := by
      intro s hs
      simpa using List.find?_eq_none.1 hfind s hs
    rw [hfind] at hagain
    rw [hagain, Registry.settled_iff]
    refine ⟨⟨?_, fun hsettled => ?_⟩, rfl, fun e d₂ he => ?_⟩
    · rintro ⟨d₂, he, hsame, -, -⟩
      obtain ⟨-, rfl⟩ := Prod.mk.inj he
      exact ⟨hno, hsame⟩
    · exact ⟨_, rfl, hsettled.2, (hc₁.byDescriptor_congr (hc₁.offerAll _) hsettled.2), rfl⟩
    · cases he

/-- The descriptor of the serializer in the place of the one for public keys is given up for another one of
its type, and taken for another type. -/
def takeover : Plugins :=
  (empty.addSerializer "app" Sample.centigrade).addSerializer "app" Sample.imposter

def blank : Draft := ⟨.empty, .new 1 false, []⟩

def takenOver : Draft := (runOn (takeover.apply Sample.celsiusA) blank).2

theorem apply_again_iff_takeover :
    runOn (takeover.apply Sample.celsiusA) blank = (.ok (), takenOver) ∧
      ¬ ∃ d₂, runOn (takeover.apply Sample.celsiusA) takenOver = (.ok (), d₂) ∧
        (∀ t, d₂.registry.byType.get? t = takenOver.registry.byType.get? t) ∧
        (∀ name, d₂.registry.byDescriptor.get? name = takenOver.registry.byDescriptor.get? name) ∧
        d₂.policy = takenOver.policy := by
  have hok : (runOn (takeover.apply Sample.celsiusA) blank).1.isOk = true := by decide +kernel
  have h : runOn (takeover.apply Sample.celsiusA) blank = (.ok (), takenOver) := by
    rw [takenOver]
    revert hok
    rcases runOn (takeover.apply Sample.celsiusA) blank with ⟨e | ⟨⟩, d⟩ <;> intro hok
    · cases hok
    · rfl
  refine ⟨h, fun hsame => ?_⟩
  have hno := ((apply_again_iff Registry.consistent_empty h).1.1 hsame).1 Sample.celsiusA
    (List.mem_append_right _ List.mem_cons_self)
  have hyes : takenOver.registry.conflicts Sample.celsiusA = true := by decide +kernel
  rw [hyes] at hno
  cases hno

end Plugins

end DurableFlow
