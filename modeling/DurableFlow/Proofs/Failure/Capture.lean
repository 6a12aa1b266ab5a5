import DurableFlow.Failure.Capture
import Mathlib.Data.List.Basic
import Mathlib.Data.List.TakeWhile

/-!
# What is captured of an error is all of it, in order

The links of a captured error are collected from the outermost to the innermost and put around one another
from the innermost to the outermost, so the chain that is read off has them in the order of the errors.
-/

namespace DurableFlow

theorem Throwable.chain_withCause (t cause : Throwable) :
    (t.withCause cause).chain = t.outer :: cause.chain := rfl

namespace HostError

theorem collect_eq (captured : List Throwable) (sources : List ErrorText) :
    collect captured sources = captured ++ sources.map alone := by
  induction sources generalizing captured with
  | nil => rw [collect, List.map_nil, List.append_nil]
  | cons source behind ih => rw [collect, ih, List.map_cons, ← List.append_cons]

theorem chain_foldl_withCause (innermost : Throwable) (outers : List Throwable) :
    (outers.foldl (fun cause outer => outer.withCause cause) innermost).chain =
      (outers.map Throwable.outer).reverse ++ innermost.chain := by
  induction outers generalizing innermost with
  | nil => rfl
  | cons outer outers ih =>
    rw [List.foldl_cons, ih, Throwable.chain_withCause, List.map_cons, List.reverse_cons,
      List.append_assoc, List.singleton_append]

theorem chain_enclose (outers : List Throwable) (innermost : Throwable) :
    (enclose (outers ++ [innermost]).reverse).chain =
      outers.map Throwable.outer ++ innermost.chain := by
  rw [List.reverse_concat, enclose, chain_foldl_withCause, List.map_reverse, List.reverse_reverse]

theorem chain_enclose_reverse {ts : List Throwable} (hne : ts ≠ []) (hbare : ∀ t ∈ ts, t.causes = []) :
    (enclose ts.reverse).chain = ts.map Throwable.outer := by
  obtain ⟨outers, innermost, rfl⟩ := (List.eq_nil_or_concat' ts).resolve_left hne
  have hlast : innermost.causes = [] := hbare innermost (by simp)
  rw [chain_enclose, Throwable.chain, hlast, List.map_append, List.map_singleton]

theorem chain_captureAs (typeName : String) (e : HostError) :
    (e.captureAs typeName).chain =
      ⟨typeName, some e.outer.shown⟩ :: e.sources.map fun source => (alone source).outer := by
  rw [captureAs, collect_eq, List.singleton_append, chain_enclose_reverse (List.cons_ne_nil _ _)]
  · rw [List.map_cons, List.map_map]
    rfl
  · simp [Throwable.new, alone]

def InLabel (c : Char) : Prop := Text.isAlphanumeric c = true ∨ c = '_' ∨ c = ':'

/-- A name labels a text if it is the longest word that the text starts with, or `error` if there is no
such word. -/
def Labels (name structural : String) : Prop :=
  ∃ word rest : List Char, structural.toList = word ++ rest ∧ (∀ c ∈ word, InLabel c) ∧
    (∀ c ∈ rest.head?, ¬ InLabel c) ∧ name = if word = [] then "error" else String.ofList word

theorem isLabelChar_iff {c : Char} : isLabelChar c = true ↔ InLabel c := by
  simp [isLabelChar, InLabel, or_assoc]

theorem labels_label (structural : String) : Labels (label structural) structural := by
  refine ⟨structural.toList.takeWhile isLabelChar, structural.toList.dropWhile isLabelChar,
    List.takeWhile_append_dropWhile.symm, fun c hc => ?_, fun c hc => ?_, ?_⟩
  · exact isLabelChar_iff.1 (List.mem_takeWhile_imp hc)
  · have hstop := List.head?_dropWhile_not isLabelChar structural.toList
    rw [Option.mem_def.1 hc] at hstop
    rw [← isLabelChar_iff, hstop]
    exact Bool.false_ne_true
  · rw [label]
    split
    next hnil => rw [hnil, if_pos rfl]
    next hne => rw [if_neg hne]

theorem chain_captureOf (typeName : String) (e : HostError) :
    (e.captureOf typeName).chain =
      ⟨if isOpen typeName then label e.outer.structural else typeName, some e.outer.shown⟩ ::
        e.sources.map fun source => (alone source).outer := by
  rw [captureOf]
  split
  next => exact chain_captureAs _ e
  next => exact chain_captureAs _ e

/-- An error with any number of errors behind it is captured as a chain of one link for each, in the same
order, with their messages. Each link is labelled by the longest word that the structural text of its error
starts with, other than the first link of an error whose own type is known, which is named after the
type. -/
theorem captures_whole_chain (typeName : String) (e : HostError) :
    (e.captureOf typeName).chain.length = e.sources.length + 1 ∧
    ∀ i text, e.links[i]? = some text → ∃ link, (e.captureOf typeName).chain[i]? = some link ∧
      link.message = some text.shown ∧
      (0 < i ∨ isOpen typeName = true → Labels link.typeName text.structural) ∧
      (i = 0 ∧ isOpen typeName = false → link.typeName = typeName) := by
  rw [chain_captureOf]
  refine ⟨by rw [List.length_cons, List.length_map], fun i text htext => ?_⟩
  cases i with
  | zero =>
    obtain rfl : e.outer = text := Option.some.inj htext
    refine ⟨_, rfl, rfl, fun h => ?_, fun h => if_neg (ne_of_eq_of_ne h.2 Bool.false_ne_true)⟩
    have hopen : isOpen typeName = true := h.resolve_left (Nat.lt_irrefl 0)
    rw [if_pos hopen]
    exact labels_label e.outer.structural
  | succ i =>
    have hsource : e.sources[i]? = some text := htext
    refine ⟨(alone text).outer, ?_, rfl, fun _ => labels_label text.structural,
      fun h => absurd h.1 (Nat.succ_ne_zero i)⟩
    rw [List.getElem?_cons_succ, List.getElem?_map, hsource, Option.map_some]

/-- The structural text of the error in the middle is a quoted message and starts with no word. -/
theorem captures_whole_chain_boxed :
    let e : HostError := ⟨⟨"wrapper failed", "Wrapper(5)"⟩,
      [⟨"disk gone", "\"disk gone\""⟩, ⟨"sector 5 unreadable", "io::Fault(5)"⟩]⟩
    let t := e.captureOf "dyn core::error::Error"
    isOpen "dyn core::error::Error" = true ∧ t.chain.length = 3 ∧
      t.chain.map ThrowableLink.typeName = ["Wrapper", "error", "io::Fault"] ∧
      ∃ link, t.chain[2]? = some link ∧ link.message = some "sector 5 unreadable" ∧
        Labels link.typeName "io::Fault(5)" := by
  intro e t
  obtain ⟨hlength, hlinks⟩ := captures_whole_chain "dyn core::error::Error" e
  obtain ⟨link, hget, hmessage, hlabel, -⟩ := hlinks 2 _ rfl
  exact ⟨by decide, hlength, by decide, link, hget, hmessage, hlabel (.inl Nat.two_pos)⟩

end HostError

end DurableFlow
