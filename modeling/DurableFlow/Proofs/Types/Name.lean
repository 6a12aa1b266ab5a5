import DurableFlow.Types.Ty

/-!
# The names of native types

The name of a type built from simple types and collections starts with a word in small letters and goes on
with a bracket or ends there, so it determines the type and where the name ends in a longer text. It has
no dot.
-/

namespace DurableFlow

theorem append_inj_of_isLower {w w' x x' : List Char} (hw : ∀ c ∈ w, c.isLower = true)
    (hw' : ∀ c ∈ w', c.isLower = true) (hx : ∀ c ∈ x.head?, c.isLower = false)
    (hx' : ∀ c ∈ x'.head?, c.isLower = false) (h : w ++ x = w' ++ x') : w = w' ∧ x = x' := by
  induction w generalizing w' with
  | nil =>
    cases w' with
    | nil => exact ⟨rfl, h⟩
    | cons c w' =>
      rw [List.nil_append, List.cons_append] at h
      have := hx c (by simp [h])
      rw [hw' c List.mem_cons_self] at this
      cases this
  | cons c w ih =>
    cases w' with
    | nil =>
      rw [List.nil_append, List.cons_append] at h
      have := hx' c (by simp [← h])
      rw [hw c List.mem_cons_self] at this
      cases this
    | cons c' w' =>
      rw [List.cons_append, List.cons_append, List.cons.injEq] at h
      obtain ⟨rfl, h⟩ := h
      obtain ⟨rfl, rfl⟩ := ih (fun c hc => hw c (List.mem_cons_of_mem _ hc))
        (fun c hc => hw' c (List.mem_cons_of_mem _ hc)) h
      exact ⟨rfl, rfl⟩

theorem IntKind.name_injective {k k' : IntKind} (h : k.name = k'.name) : k = k' := by
  cases k <;> cases k' <;> first | rfl | exact absurd h (by decide)

namespace Ty

/-- The word that the name of a native type starts with. -/
def word : Ty → String
  | int kind => kind.name
  | boolean => "boolean"
  | double => "double"
  | char => "char"
  | string => "string"
  | list _ => "list"
  | optional _ => "optional"
  | set _ => "set"
  | map _ _ => "map"
  | hashmap _ _ => "hashmap"
  | pair _ _ => "pair"
  | builtin _ | named _ _ | any => ""

def arguments : Ty → List Char
  | list item | optional item | set item => '<' :: (item.name.toList ++ ['>'])
  | map first second | hashmap first second | pair first second =>
    '<' :: (first.name.toList ++ ',' :: (second.name.toList ++ ['>']))
  | _ => []

theorem toList_name {t : Ty} (h : t.isNative = true) :
    t.name.toList = t.word.toList ++ t.arguments := by
  cases t <;> first
    | exact absurd h Bool.false_ne_true
    | simp [name, word, arguments, String.toList_append, toString]

theorem isLower_word (t : Ty) : ∀ c ∈ t.word.toList, c.isLower = true := by
  have hall : t.word.toList.all Char.isLower = true := by
    cases t with
    | int kind => cases kind <;> decide
    | _ =>
      simp only [word]
      decide
  exact List.all_eq_true.1 hall

theorem head_arguments_append (t : Ty) {x : List Char} (hx : ∀ c ∈ x.head?, c.isLower = false) :
    ∀ c ∈ (t.arguments ++ x).head?, c.isLower = false := by
  cases t <;> first
    | exact hx
    | simp [arguments]

theorem eq_int_of_word {t : Ty} {kind : IntKind} (ht : t.isNative = true) (h : t.word = kind.name) :
    ∃ kind', t = int kind' := by
  cases t with
  | int kind' => exact ⟨kind', rfl⟩
  | builtin _ | named _ _ | any => exact absurd ht Bool.false_ne_true
  | _ => cases kind <;> simp [word, IntKind.name] at h

theorem ctorIdx_eq {t u : Ty} (ht : t.isNative = true) (hu : u.isNative = true)
    (h : t.word = u.word) : t.ctorIdx = u.ctorIdx := by
  cases t with
  | int kind =>
    obtain ⟨kind', rfl⟩ := eq_int_of_word hu h.symm
    rfl
  | builtin _ | named _ _ | any => exact absurd ht Bool.false_ne_true
  | _ =>
    cases u with
    | int kind =>
      obtain ⟨kind', h⟩ := eq_int_of_word ht h
      cases h
    | builtin _ | named _ _ | any => exact absurd hu Bool.false_ne_true
    | _ => first
      | rfl
      | simp [word] at h

/-- The name of the type says where it ends in a text. -/
def EndsName (t : Ty) : Prop :=
  ∀ (u : Ty) (x y : List Char), u.isNative = true → (∀ c ∈ x.head?, c.isLower = false) →
    (∀ c ∈ y.head?, c.isLower = false) → t.name.toList ++ x = u.name.toList ++ y → t = u ∧ x = y

theorem split_name {t u : Ty} {x y : List Char} (ht : t.isNative = true) (hu : u.isNative = true)
    (hx : ∀ c ∈ x.head?, c.isLower = false) (hy : ∀ c ∈ y.head?, c.isLower = false)
    (h : t.name.toList ++ x = u.name.toList ++ y) :
    t.ctorIdx = u.ctorIdx ∧ t.word = u.word ∧ t.arguments ++ x = u.arguments ++ y := by
  rw [toList_name ht, toList_name hu, List.append_assoc, List.append_assoc] at h
  obtain ⟨hword, hrest⟩ := append_inj_of_isLower (isLower_word t) (isLower_word u)
    (head_arguments_append t hx) (head_arguments_append u hy) h
  have hword := String.toList_inj.1 hword
  exact ⟨ctorIdx_eq ht hu hword, hword, hrest⟩

theorem EndsName.of_item {collection : Ty → Ty} {item : Ty} (h : item.EndsName)
    (hnative : ∀ u, (collection u).isNative = u.isNative)
    (harguments : ∀ u, (collection u).arguments = '<' :: (u.name.toList ++ ['>']))
    (hkind : ∀ u : Ty, u.ctorIdx = (collection item).ctorIdx → ∃ item', u = collection item')
    (ht : (collection item).isNative = true) : (collection item).EndsName := by
  intro u x y hu hx hy hxy
  obtain ⟨hidx, -, hrest⟩ := split_name ht hu hx hy hxy
  obtain ⟨item', rfl⟩ := hkind u hidx.symm
  simp only [harguments, List.cons_append, List.append_assoc, List.nil_append, List.cons.injEq,
    true_and] at hrest
  obtain ⟨rfl, hend⟩ := h item' _ _ (hnative item' ▸ hu) (by simp) (by simp) hrest
  exact ⟨rfl, List.tail_eq_of_cons_eq hend⟩

theorem EndsName.of_parts {collection : Ty → Ty → Ty} {first second : Ty} (h : first.EndsName)
    (h' : second.EndsName)
    (hnative : ∀ u u', (collection u u').isNative = (u.isNative && u'.isNative))
    (harguments : ∀ u u', (collection u u').arguments =
      '<' :: (u.name.toList ++ ',' :: (u'.name.toList ++ ['>'])))
    (hkind : ∀ u : Ty, u.ctorIdx = (collection first second).ctorIdx →
      ∃ first' second', u = collection first' second')
    (ht : (collection first second).isNative = true) : (collection first second).EndsName := by
  intro u x y hu hx hy hxy
  obtain ⟨hidx, -, hrest⟩ := split_name ht hu hx hy hxy
  obtain ⟨first', second', rfl⟩ := hkind u hidx.symm
  obtain ⟨hu, hu'⟩ := Bool.and_eq_true_iff.1 (hnative first' second' ▸ hu)
  simp only [harguments, List.cons_append, List.append_assoc, List.nil_append, List.cons.injEq,
    true_and] at hrest
  obtain ⟨rfl, hcomma⟩ := h first' _ _ hu (by simp) (by simp) hrest
  obtain ⟨rfl, hend⟩ := h' second' _ _ hu' (by simp) (by simp) (List.tail_eq_of_cons_eq hcomma)
  exact ⟨rfl, List.tail_eq_of_cons_eq hend⟩

theorem endsName {t : Ty} (ht : t.isNative = true) : t.EndsName := by
  induction t with
  | builtin _ | named _ _ | any => exact absurd ht Bool.false_ne_true
  | int kind =>
    intro u x y hu hx hy h
    obtain ⟨-, hword, hrest⟩ := split_name ht hu hx hy h
    obtain ⟨kind', rfl⟩ := eq_int_of_word hu hword.symm
    exact ⟨congrArg int (IntKind.name_injective hword), hrest⟩
  | boolean | double | char | string =>
    intro u x y hu hx hy h
    obtain ⟨hidx, -, hrest⟩ := split_name ht hu hx hy h
    cases u <;> first
      | exact ⟨rfl, hrest⟩
      | cases hidx
  | list item ih | optional item ih | set item ih =>
    refine (ih ht).of_item (fun _ => rfl) (fun _ => rfl) (fun u hu => ?_) ht
    cases u <;> first
      | exact ⟨_, rfl⟩
      | cases hu
  | map first second ih ih' | hashmap first second ih ih' | pair first second ih ih' =>
    obtain ⟨hfirst, hsecond⟩ := Bool.and_eq_true_iff.1 ht
    refine (ih hfirst).of_parts (ih' hsecond) (fun _ _ => rfl) (fun _ _ => rfl) (fun u hu => ?_) ht
    cases u <;> first
      | exact ⟨_, _, rfl⟩
      | cases hu

/-- Native types of one name are one type. -/
theorem eq_of_name_eq {t u : Ty} (ht : t.isNative = true) (hu : u.isNative = true)
    (h : t.name = u.name) : t = u :=
  (endsName ht u [] [] hu (by simp) (by simp) (by rw [h])).1

theorem ofDescriptor?_name {known : List Ty} {t : Ty} (ht : t.isNative = true) (hmem : t ∈ known) :
    ofDescriptor? known t.name = some t := by
  cases hfind : ofDescriptor? known t.name with
  | none =>
    have := List.find?_eq_none.1 hfind t hmem
    simp [ht] at this
  | some u =>
    have hu := List.find?_some hfind
    rw [Bool.and_eq_true, beq_iff_eq] at hu
    rw [eq_of_name_eq hu.1 ht hu.2]

theorem dot_not_mem_name {t : Ty} (ht : t.isNative = true) : '.' ∉ t.name.toList := by
  induction t with
  | builtin _ | named _ _ | any => exact absurd ht Bool.false_ne_true
  | int kind => cases kind <;> decide
  | boolean | double | char | string => decide
  | list item ih | optional item ih | set item ih =>
    rw [toList_name ht]
    have := ih ht
    simp [word, arguments, this]
  | map first second ih ih' | hashmap first second ih ih' | pair first second ih ih' =>
    rw [toList_name ht]
    obtain ⟨ht, ht'⟩ := Bool.and_eq_true_iff.1 ht
    have := ih ht
    have := ih' ht'
    simp [word, arguments, *]

end Ty

end DurableFlow
