import DurableFlow.Proofs.Environment.Factories
import DurableFlow.Proofs.Typing.Values

/-!
# Defaults that nothing takes the place of

After registration a type of the library has the serializer of the library, unless another one is
contributed for it or was there before.
-/

namespace DurableFlow

namespace Registry

variable {r r' : Registry} {t : Ty} {s s' : Serializer}

/-- No serializer but this one is bound to the type. -/
def ReservedFor (r : Registry) (t : Ty) (s : Serializer) : Prop :=
  ∀ s', r.byType.get? t = some s' → s' = s

theorem ReservedFor.add_false (h : r.ReservedFor t s) (hs' : s'.target = t → s' = s) {o : Registration}
    (ha : r.add false s' = .ok (r', o)) : r'.ReservedFor t s := by
  intro s'' hs''
  by_cases ht : s'.target = t
  · subst ht
    rw [byType_add_false ha, Option.or_eq_some_iff] at hs''
    rcases hs'' with hs'' | ⟨-, hs''⟩
    · exact h s'' hs''
    · exact (Option.some.inj hs'').symm.trans (hs' rfl)
  · rw [byType_add_of_ne ha ht] at hs''
    exact h s'' hs''

theorem byType_offerAll_of_ne {cs : List Serializer} (h : ∀ c ∈ cs, c.target ≠ t) (r : Registry) :
    (r.offerAll cs).byType.get? t = r.byType.get? t := by
  induction cs generalizing r with
  | nil => rfl
  | cons c cs ih =>
    have hoffer : (r.offer c).byType.get? t = r.byType.get? t := by
      rw [offer]
      split_ifs
      · rw [byType_bind, if_neg (h c List.mem_cons_self)]
      · rfl
    exact (ih (fun c' hc' => h c' (List.mem_cons_of_mem _ hc')) _).trans hoffer

end Registry

theorem Draft.reservedFor_addAll {ss : List Serializer} {t : Ty} {s : Serializer} {d d' : Draft}
    (hd : d.registry.ReservedFor t s) (hss : ∀ s' ∈ ss, s'.target = t → s' = s)
    (h : runOn (ss.forM (add false)) d = (.ok (), d')) : d'.registry.ReservedFor t s := by
  induction ss generalizing d with
  | nil =>
    obtain ⟨-, rfl⟩ := Prod.mk.inj h
    exact hd
  | cons s' ss ih =>
    rw [runOn_forM_cons, runOn_add] at h
    cases ha : d.registry.add false s' with
    | error e =>
      rw [ha] at h
      cases h
    | ok p =>
      rw [ha] at h
      refine ih ?_ (fun s'' hs'' => hss s'' (List.mem_cons_of_mem _ hs'')) h
      exact hd.add_false (hss s' List.mem_cons_self) ha

namespace Plugins

variable {p : Plugins} {key s : Serializer} {d d₁ : Draft} {b : Builtin} {bs : List Builtin}

theorem mem_defaults (hb : b ≠ .publicKey) (key : Serializer) : b.serializer ∈ defaults key := by
  by_cases hsecurity : b ∈ [Builtin.secureHash, .contractAttachment]
  · exact List.mem_append_right _ (List.mem_cons_of_mem _ (List.mem_map_of_mem hsecurity))
  · refine List.mem_append_left _ (List.mem_append_left _ (List.mem_map_of_mem ?_))
    cases b with
    | publicKey => exact absurd rfl hb
    | secureHash | contractAttachment => exact absurd (by decide) hsecurity
    | _ => decide

theorem eq_serializer_of_mem (hs : s ∈ defaults key) (hkey : key.target = .builtin b → key = b.serializer)
    (ht : s.target = .builtin b) : s = b.serializer := by
  have hlibrary : s ∈ Registry.library ∨ s = key := by
    rw [defaults, List.mem_append, List.mem_cons] at hs
    rw [Registry.library, List.mem_append, List.mem_cons]
    rcases hs with hs | rfl | hs
    · exact .inl (.inl hs)
    · exact .inr rfl
    · exact .inl (.inr (.inr hs))
  rcases hlibrary with hlibrary | rfl
  · rcases Registry.mem_library hlibrary with ⟨b', rfl⟩ | ⟨t, hboxed, rfl⟩
    · rw [Ty.builtin.inj ht]
    · obtain rfl : t = .builtin b := ht
      simp [Builtin.boxedTypes] at hboxed
  · exact hkey ht

/-- Registration leaves a built-in type with the serializer of the library if nothing takes its place. -/
theorem byType_of_runOn_apply (h : runOn (p.apply key) d = (.ok (), d₁))
    (hdefault : b.serializer ∈ defaults key)
    (hreserved : d.registry.ReservedFor (.builtin b) b.serializer)
    (hkey : key.target = .builtin b → key = b.serializer)
    (hcontributed : ∀ s ∈ p.contributions, s.target ≠ .builtin b) :
    d₁.registry.byType.get? (.builtin b) = some b.serializer := by
  rw [apply_eq, runOn_bind_eq_ok_iff] at h
  obtain ⟨⟨⟩, d', hdefaults, h⟩ := h
  rw [runOn_bind_eq_ok_iff] at h
  obtain ⟨⟨⟩, d'', hnames, h⟩ := h
  have hbound := (Draft.of_runOn_addAll hdefaults).2.2 (.builtin b)
    (.inl (List.mem_map.2 ⟨b.serializer, hdefault, rfl⟩))
  have hreserved' := Draft.reservedFor_addAll hreserved
    (fun s hs ht => eq_serializer_of_mem hs hkey ht) hdefaults
  obtain ⟨-, rfl⟩ := Prod.mk.inj ((Draft.runOn_allowAll _ (Draft.repeated_of_runOn_allowAll hnames)
    d').symm.trans hnames)
  obtain ⟨log, hlog⟩ := Draft.runOn_contributeAll p.serializers
    { d' with policy := d'.policy.joinAll p.whitelists }
  obtain ⟨-, rfl⟩ := Prod.mk.inj (hlog.symm.trans h)
  obtain ⟨s, hs⟩ := Option.isSome_iff_exists.1 hbound
  have hkept := Registry.byType_offerAll_of_ne hcontributed d'.registry
  rw [hs, hreserved' s hs] at hkept
  exact hkept

/-- Registration has succeeded, and for these types no serializer other than the one of the library was
there before, is designated or is contributed. -/
structure LeavesDefaults (p : Plugins) (key : Serializer) (d d₁ : Draft) (bs : List Builtin) : Prop where
  run : runOn (p.apply key) d = (.ok (), d₁)
  reserved : ∀ b ∈ bs, d.registry.ReservedFor (.builtin b) b.serializer
  designated : ∀ b ∈ bs, key.target ≠ .builtin b
  contributed : ∀ b ∈ bs, ∀ s ∈ p.contributions, s.target ≠ .builtin b

theorem LeavesDefaults.byType (h : p.LeavesDefaults key d d₁ bs) (hb : b ∈ bs)
    (hdefault : b.serializer ∈ defaults key) :
    d₁.registry.byType.get? (.builtin b) = some b.serializer :=
  byType_of_runOn_apply h.run hdefault (h.reserved b hb) (fun ht => absurd ht (h.designated b hb))
    (h.contributed b hb)

/-- Registration with the library's own serializer for public keys has succeeded, and for these types no
serializer other than the one of the library was there before or is contributed. -/
structure LeavesLibrary (p : Plugins) (d d₁ : Draft) (bs : List Builtin) : Prop where
  run : runOn (p.apply (Builtin.serializer .publicKey)) d = (.ok (), d₁)
  reserved : ∀ b ∈ bs, d.registry.ReservedFor (.builtin b) b.serializer
  contributed : ∀ b ∈ bs, ∀ s ∈ p.contributions, s.target ≠ .builtin b

theorem LeavesLibrary.byType (h : p.LeavesLibrary d d₁ bs) (hb : b ∈ bs) :
    d₁.registry.byType.get? (.builtin b) = some b.serializer := by
  have hdefault : b.serializer ∈ defaults (Builtin.serializer .publicKey) := by
    by_cases hkey : b = .publicKey
    · subst hkey
      exact List.mem_append_right _ List.mem_cons_self
    · exact mem_defaults hkey _
  refine byType_of_runOn_apply h.run hdefault (h.reserved b hb) (fun ht => ?_) (h.contributed b hb)
  rw [← Ty.builtin.inj ht]

/-- Without contributions registration leaves the defaults of a new registry. -/
theorem leavesDefaults_of_pristine (hp : p.serializers = [])
    (hw : ∀ w ∈ p.whitelists, Policy.repeated w.2 = []) (policy : Policy) (hbs : .publicKey ∉ bs) :
    p.LeavesDefaults (Builtin.serializer .publicKey) ⟨.empty, policy, []⟩
      ⟨.standard, policy.joinAll p.whitelists, []⟩ bs where
  run := runOn_apply_of_pristine hp .empty hw
  reserved _ _ _ h := nomatch h
  designated b hb h := hbs (Ty.builtin.inj h ▸ hb)
  contributed b _ s hs := by
    rw [contributions, hp] at hs
    exact absurd hs List.not_mem_nil

theorem leavesLibrary_of_pristine (hp : p.serializers = [])
    (hw : ∀ w ∈ p.whitelists, Policy.repeated w.2 = []) (policy : Policy) (bs : List Builtin) :
    p.LeavesLibrary ⟨.empty, policy, []⟩ ⟨.standard, policy.joinAll p.whitelists, []⟩ bs where
  run := runOn_apply_of_pristine hp .empty hw
  reserved _ _ _ h := nomatch h
  contributed b _ s hs := by
    rw [contributions, hp] at hs
    exact absurd hs List.not_mem_nil

end Plugins

end DurableFlow
