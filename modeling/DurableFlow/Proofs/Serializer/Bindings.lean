import DurableFlow.Bindings
import Mathlib.Tactic.SplitIfs

/-!
# What bindings bind
-/

namespace DurableFlow.Bindings

variable {κ ν : Type} [DecidableEq κ] (m : Bindings κ ν) (k k' : κ) (v : ν)

theorem get?_erase : (m.erase k).get? k' = if k = k' then none else m.get? k' := by
  rw [get?, get?, erase, List.find?_filter]
  split_ifs with h
  · subst h
    rw [List.find?_eq_none.2, Option.map_none]
    simp
  · congr 2
    funext e
    by_cases he : e.1 = k'
    · simp [he, Ne.symm h]
    · simp [he]

theorem get?_set : (m.set k v).get? k' = if k = k' then some v else m.get? k' := by
  have happend : (m.set k v).get? k' =
      ((m.erase k).get? k').or (if k = k' then some v else none) := by
    rw [get?, set, List.find?_append, Option.map_or]
    refine congrArg _ ?_
    by_cases h : k = k' <;> simp [h]
  rw [happend, get?_erase]
  split_ifs
  · rfl
  · exact Option.or_none

theorem get?_set_self : (m.set k v).get? k = some v := by
  rw [get?_set, if_pos rfl]

variable {k k'}

section

variable {α β : Type} [DecidableEq β] {f : α → β} {a : α} {l : List α}

theorem find?_of_mem (hn : (l.map f).Nodup) (ha : a ∈ l) : l.find? (f · = f a) = some a := by
  induction l with
  | nil => cases ha
  | cons b l ih =>
    rw [List.map_cons, List.nodup_cons] at hn
    rcases List.mem_cons.1 ha with rfl | ha
    · exact List.find?_cons_of_pos (decide_eq_true rfl)
    · rw [List.find?_cons_of_neg, ih hn.2 ha]
      intro he
      exact hn.1 (of_decide_eq_true he ▸ List.mem_map_of_mem ha)

theorem find?_perm {l' : List α} (h : l.Perm l') (hn : (l.map f).Nodup) (b : β) :
    l.find? (f · = b) = l'.find? (f · = b) := by
  cases hfound : l'.find? (f · = b) with
  | none =>
    rw [List.find?_eq_none] at hfound ⊢
    exact fun a ha => hfound a (h.mem_iff.1 ha)
  | some a =>
    obtain rfl : f a = b := by simpa using List.find?_some hfound
    exact find?_of_mem hn (h.mem_iff.2 (List.mem_of_find?_eq_some hfound))

theorem find?_or_of_nodup (hn : ((a :: l).map f).Nodup) (b : β) (o : Option α) :
    (l.find? (f · = b)).or (if f a = b then some a else o) = ((a :: l).find? (f · = b)).or o := by
  by_cases hb : f a = b
  · have hnone : l.find? (f · = b) = none := by
      rw [List.find?_eq_none]
      intro c hc he
      exact (List.nodup_cons.1 hn).1 (List.mem_map.2 ⟨c, hc, (of_decide_eq_true he).trans hb.symm⟩)
    rw [hnone, if_pos hb, List.find?_cons, decide_eq_true hb]
    rfl
  · rw [if_neg hb, List.find?_cons, decide_eq_false hb]

end

section

variable {m : Bindings κ ν} {v : ν}

theorem mem_of_get? (h : m.get? k = some v) : (k, v) ∈ m.list := by
  obtain ⟨e, he, rfl⟩ := Option.map_eq_some_iff.1 h
  obtain rfl : e.1 = k := by simpa using List.find?_some he
  exact List.mem_of_find?_eq_some he

theorem get?_of_mem (hn : m.keys.Nodup) (he : (k, v) ∈ m.list) : m.get? k = some v := by
  have hfind := find?_of_mem hn he
  rw [get?, hfind, Option.map_some]

theorem isSome_get?_iff : (m.get? k).isSome ↔ k ∈ m.keys := by
  rw [get?, Option.isSome_map, List.find?_isSome, keys, List.mem_map]
  simp only [decide_eq_true_eq]

theorem nodup_keys_erase (hn : m.keys.Nodup) (k : κ) : (m.erase k).keys.Nodup :=
  hn.sublist (List.filter_sublist.map _)

theorem nodup_keys_set (hn : m.keys.Nodup) (k : κ) (v : ν) : (m.set k v).keys.Nodup := by
  have hfresh : k ∉ (m.erase k).keys := by
    rw [← isSome_get?_iff, get?_erase, if_pos rfl]
    exact Bool.false_ne_true
  rw [keys, set, List.map_append, List.map_singleton, List.nodup_append]
  refine ⟨nodup_keys_erase hn k, List.pairwise_singleton _ k, fun a ha b hb hab => ?_⟩
  rw [hab, List.mem_singleton.1 hb] at ha
  exact hfresh ha

end

end DurableFlow.Bindings
