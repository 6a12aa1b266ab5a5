import DurableFlow.Proofs.Writing.Unless

/-!
# How deep stand-ins nest

A stand-in is a value that may have stand-ins itself. The bound on how deep they nest has a part in nothing but
conversions that go on beyond it: what is written within a bound is written in the same way within every higher
one, and a value whose stand-ins come to an end comes to the same within all bounds from there on.
-/

namespace DurableFlow.Setting

variable {c : Setting} {P : Abort → Prop} {w w' : Value → Writer} {v : Value} {t : Ty} {slot : Slot} {s : Schema}
  {m n : Nat}

theorem unguarded_true : Unguarded fun _ => True := by
  intro α s operation e _
  rcases e with _ | _
  · exact ⟨_, trivial, rfl⟩
  · rw [Serializer.guard]
    split_ifs
    · exact ⟨_, trivial, rfl⟩
    · exact ⟨_, trivial, rfl⟩

theorem writesObjectsUnless_self : c.WritesObjectsUnless c P where
  registry := rfl
  loaded t v items items' hi := by
    cases c.scope.objectType? t with
    | none => exact .none
    | some o => exact .some (.bind_right _ fun _ => writeObject_unless v o hi)

theorem writeWithin_unless (h : n ≤ m) (v : Value) :
    (c.writeWithin n v).Unless (fun _ => True) (c.writeWithin m v) := by
  induction n generalizing m v with
  | zero => exact fun _ _ => .fail trivial _
  | succ n ih =>
    obtain ⟨m, rfl⟩ : ∃ k, m = k + 1 := ⟨m - 1, by omega⟩
    exact writeOver_unless unguarded_true writesObjectsUnless_self (ih (by omega)) v

/-- What is written within a bound is written in the same way within every higher one. -/
theorem writeWithin_mono (h : n ≤ m) {r : Element × Schema} (hr : c.writeWithin n v t slot s = .ok r) :
    c.writeWithin m v t slot s = .ok r :=
  Unless.eq_of_ok (hr ▸ writeWithin_unless h v t slot s)

theorem writeWithin_eq_of_ok {r r' : Element × Schema} (hr : c.writeWithin n v t slot s = .ok r)
    (hr' : c.writeWithin m v t slot s = .ok r') : r = r' := by
  rcases Nat.le_total n m with h | h
  · exact Except.ok.inj ((writeWithin_mono h hr).symm.trans hr')
  · exact Except.ok.inj (hr.symm.trans (writeWithin_mono h hr'))

/-- Writes stand-ins that nest up to `n` deep and leaves deeper ones to `w`. -/
def writeNested (c : Setting) (w : Value → Writer) : Nat → Value → Writer
  | 0 => w
  | n + 1 => c.writeOver (c.writeNested w n)

theorem writeWithin_add (n m : Nat) : c.writeWithin (n + m) = c.writeNested (c.writeWithin m) n := by
  induction n with
  | zero => rw [Nat.zero_add, writeNested]
  | succ n ih =>
    rw [Nat.succ_add, writeNested, ← ih]
    rfl

/-- Writing the value needs no stand-ins that are nested deeper than this. -/
def EndsWithin (c : Setting) (n : Nat) (v : Value) (t : Ty) (slot : Slot) (s : Schema) : Prop :=
  ∀ w w', c.writeNested w n v t slot s = c.writeNested w' n v t slot s

theorem EndsWithin.writeWithin_eq (h : c.EndsWithin n v t slot s) (hm : n ≤ m) :
    c.writeWithin m v t slot s = c.writeWithin n v t slot s := by
  obtain ⟨k, rfl⟩ := Nat.exists_eq_add_of_le hm
  have hn : c.writeWithin n = c.writeNested (c.writeWithin 0) n := writeWithin_add n 0
  rw [writeWithin_add, hn]
  exact h _ _

/-- No serializer works through stand-ins. -/
def Direct (c : Setting) : Prop :=
  ∀ t x, c.registry.byType.get? t = some x → ∀ standIn toProxy fromProxy, x.codec ≠ .proxy standIn toProxy fromProxy

theorem Direct.writeNode_eq (hc : c.Direct) (v : Value) (items : List Writer) (entries : List (Writer × Writer)) :
    c.writeNode w v items entries = c.writeNode w' v items entries := by
  have hdescribed : c.writeDescribed w v items entries = c.writeDescribed w' v items entries := by
    funext t slot
    simp only [writeDescribed]
    cases hx : c.registry.byType.get? t with
    | none => rfl
    | some x =>
      have hbody : writeBody w x v items = writeBody w' x v items := by
        rw [writeBody, writeBody]
        cases hcodec : x.codec with
        | single | composite => rfl
        | proxy standIn toProxy fromProxy => exact absurd hcodec (hc t x hx standIn toProxy fromProxy)
      simp only [hbody]
  funext t slot
  simp only [writeNode, hdescribed]

theorem Direct.endsWithin (hc : c.Direct) : c.EndsWithin 1 v t slot s := by
  have hwriteOver : ∀ v w w', c.writeOver w v = c.writeOver w' v := by
    intro v w w'
    induction v using Value.member_induction with
    | leaf v h => rw [writeOver_leaf c w h, writeOver_leaf c w' h, hc.writeNode_eq]
    | seq vs ih =>
      rw [writeOver_seq, writeOver_seq, List.map_congr_left ih]
      exact hc.writeNode_eq _ _ _
    | entries es ih =>
      have hes : es.map (fun e => (c.writeOver w e.1, c.writeOver w e.2)) =
          es.map fun e => (c.writeOver w' e.1, c.writeOver w' e.2) :=
        List.map_congr_left fun e he => Prod.ext (ih e he).1 (ih e he).2
      rw [writeOver_entries, writeOver_entries, hes]
      exact hc.writeNode_eq _ _ _
    | erased type name native v ih =>
      funext t slot
      have hnode : c.writeNode w (.erased type name native v) [] [] =
          c.writeNode w' (.erased type name native v) [] [] := hc.writeNode_eq _ _ _
      cases t with
      | any =>
        cases slot with
        | typed => rw [writeOver_erased, writeOver_erased, ih]
        | erased own lent => exact congrFun (congrFun hnode .any) (.erased own lent)
      | _ => exact congrFun (congrFun hnode _) _
  exact fun w w' => congrFun (congrFun (congrFun (hwriteOver v w w') t) slot) s

/-! ### Envelopes -/

variable (c) in
/-- A value is written over writers of its stand-ins, and of theirs. -/
theorem exists_writer : ∃ nesting, ∀ t v,
    c.write t v = c.writeOver (c.writeWithin (nesting + 1)) v t .typed .empty := ⟨_, fun _ _ => rfl⟩

/-- A value whose stand-ins do not nest beyond the bound comes to what it comes to within any other bound that they
do not nest beyond. -/
theorem write_eq_of_endsWithin (h : c.EndsWithin n v t .typed .empty) (hn : n ≤ maxStandIns) (hm : n ≤ m) :
    c.write t v = c.writeWithin m v t .typed .empty :=
  (h.writeWithin_eq hn).trans (h.writeWithin_eq hm).symm

theorem Direct.write_eq (hc : c.Direct) (n : Nat) (t : Ty) (v : Value) :
    c.write t v = c.writeWithin (n + 1) v t .typed .empty :=
  write_eq_of_endsWithin hc.endsWithin (by decide) (by omega)

/-- What is written under the bound is what is written under any other one, if it is not broken off there. -/
theorem eq_of_write_of_writeWithin {r r' : Element × Schema} (hr : c.write t v = .ok r)
    (hr' : c.writeWithin m v t .typed .empty = .ok r') : r' = r := writeWithin_eq_of_ok hr' hr

end DurableFlow.Setting
