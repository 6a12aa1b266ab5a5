import DurableFlow.Envelope
import DurableFlow.Proofs.Wire.Reading

/-!
# Schemas and elements on the wire

An element that nests no deeper than the reader allows is read back from its form, and one that nests
deeper makes the reader fail for that alone. What is read always stood there in its form.
-/

namespace DurableFlow

namespace Element

theorem depth_pos (e : Element) : 0 < e.depth := by
  cases e <;> simp only [depth] <;> omega

theorem depthAll_le_iff {es : List Element} {d : Nat} :
    depthAll es ≤ d ↔ ∀ e ∈ es, e.depth ≤ d := by
  induction es with
  | nil => simp [depthAll]
  | cons e es ih => rw [depthAll, Nat.max_le, ih, List.forall_mem_cons]

theorem depthEntries_le_iff {es : List (Element × Element)} {d : Nat} :
    depthEntries es ≤ d ↔ ∀ e ∈ es, e.1.depth ≤ d ∧ e.2.depth ≤ d := by
  induction es with
  | nil => simp [depthEntries]
  | cons e es ih => rw [depthEntries, Nat.max_le, Nat.max_le, ih, List.forall_mem_cons]

end Element

namespace Wire

theorem elementsBytes_eq (es : List Element) : elementsBytes es = es.flatMap elementBytes := by
  induction es with
  | nil => rfl
  | cons e es ih => rw [elementsBytes, ih, List.flatMap_cons]

theorem entriesBytes_eq (es : List (Element × Element)) :
    entriesBytes es = es.flatMap fun e => elementBytes e.1 ++ elementBytes e.2 := by
  induction es with
  | nil => rfl
  | cons e es ih => rw [entriesBytes, ih, List.flatMap_cons]

section Sizes

variable {α : Type} {g : α → Nat} {l : List α}

def total (g : α → Nat) : List α → Nat
  | [] => 0
  | x :: xs => g x + total g xs

theorem le_total_of_mem {x : α} (h : x ∈ l) : g x ≤ total g l := by
  induction l with
  | nil => cases h
  | cons y l ih =>
    rw [total]
    rcases List.mem_cons.1 h with rfl | h
    · omega
    · have := ih h
      omega

theorem length_le_total (h : ∀ x, 0 < g x) : l.length ≤ total g l := by
  induction l with
  | nil => exact Nat.le_refl 0
  | cons x l ih =>
    have := h x
    rw [total, List.length_cons]
    omega

theorem elementsSize_eq (es : List Element) : elementsSize es = total elementSize es := by
  induction es with
  | nil => rfl
  | cons e es ih => rw [elementsSize, ih, total]

def entrySize (e : Element × Element) : Nat := elementSize e.1 + elementSize e.2

theorem entriesSize_eq (es : List (Element × Element)) :
    entriesSize es = total entrySize es := by
  induction es with
  | nil => rfl
  | cons e es ih => rw [entriesSize, ih, total, entrySize]

theorem textsSize_eq (ts : List String) :
    textsSize ts = total (fun t => 8 + t.utf8ByteSize) ts := by
  induction ts with
  | nil => rfl
  | cons t ts ih => rw [textsSize, ih, total]

theorem notationsSize_eq (ns : List TypeNotation) :
    notationsSize ns = total notationSize ns := by
  induction ns with
  | nil => rfl
  | cons n ns ih => rw [notationsSize, ih, total]

theorem elementSize_pos (e : Element) : 0 < elementSize e := by
  cases e <;> simp only [elementSize] <;> omega

theorem entrySize_pos (e : Element × Element) : 0 < entrySize e :=
  Nat.add_pos_left (elementSize_pos e.1) _

theorem notationSize_pos (n : TypeNotation) : 0 < notationSize n := by
  cases n <;> simp only [notationSize] <;> omega

end Sizes

section Schemas

variable (f : WireFault)

theorem readsBack_text {s : String} (h : s.utf8ByteSize < lengthBound) :
    ReadsBack readText text f s True :=
  .of_forall (readText_append h)

theorem readsBack_texts {ts : List String} (h : textsSize ts < lengthBound) :
    ReadsBack (readList readText) (listBytes text) f ts (∀ t ∈ ts, True) := by
  rw [textsSize_eq] at h
  have hl : ts.length < lengthBound :=
    Nat.lt_of_le_of_lt (length_le_total fun t => by omega) h
  refine .list hl fun t ht => readsBack_text f ?_
  have := le_total_of_mem (g := fun t : String => 8 + t.utf8ByteSize) ht
  omega

theorem readsBack_notation {n : TypeNotation} (h : notationSize n < lengthBound) :
    ReadsBack readNotation notationBytes f n True := by
  refine .of_forall fun rest => ?_
  cases n with
  | composite name fields =>
    rw [notationSize] at h
    have hn : name.utf8ByteSize < lengthBound := by omega
    have hf : textsSize fields < lengthBound := by omega
    have hp := (readsBack_text f hn).pair (readsBack_texts f hf)
    have := hp.map (fun p => TypeNotation.composite p.1 p.2) rest
    simp only [listBytes, List.append_assoc, implies_true, and_self, if_true] at this
    rw [readNotation, notationBytes]
    simp only [List.append_assoc, readTag_append (show 0 < 4294967296 by decide), this]
  | restricted name serializer =>
    rw [notationSize] at h
    have hn : name.utf8ByteSize < lengthBound := by omega
    have hs : serializer.utf8ByteSize < lengthBound := by omega
    have hp := (readsBack_text f hn).pair (readsBack_text f hs)
    have := hp.map (fun p => TypeNotation.restricted p.1 p.2) rest
    simp only [List.append_assoc, and_self, if_true] at this
    rw [readNotation, notationBytes]
    simp only [List.append_assoc, readTag_append (show 1 < 4294967296 by decide), this]

theorem readsBack_schema {s : Schema} (h : schemaSize s < lengthBound) :
    ReadsBack readSchema schemaBytes f s True := by
  rw [schemaSize, notationsSize_eq] at h
  have hl : s.types.length < lengthBound := by
    have := length_le_total (l := s.types) notationSize_pos
    omega
  have hs : ReadsBack (readList readNotation) (listBytes notationBytes) f s.types
      (∀ n ∈ s.types, True) := by
    refine .list hl fun n hn => readsBack_notation f ?_
    have := le_total_of_mem (g := notationSize) hn
    omega
  refine .of_forall fun rest => ?_
  have := hs.map Schema.mk rest
  simp only [implies_true, if_true] at this
  exact this

theorem canonical_readNotation : Canonical readNotation notationBytes fun _ => True := by
  intro bs n rest h
  rw [readNotation] at h
  split at h
  case h_1 => simp at h
  case h_2 rest₁ ht =>
    obtain ⟨_, rfl⟩ := canonical_readTag _ _ _ ht
    obtain ⟨p, rfl, _, rfl⟩ := (canonical_readText.pair canonical_readText.list).map h
    exact ⟨trivial, by simp only [notationBytes, listBytes, List.append_assoc]⟩
  case h_3 rest₁ ht =>
    obtain ⟨_, rfl⟩ := canonical_readTag _ _ _ ht
    obtain ⟨p, rfl, _, rfl⟩ := (canonical_readText.pair canonical_readText).map h
    exact ⟨trivial, by simp only [notationBytes, List.append_assoc]⟩
  case h_4 => simp at h

theorem canonical_readSchema : Canonical readSchema schemaBytes fun _ => True := by
  intro bs s rest h
  obtain ⟨ns, rfl, _, rfl⟩ := canonical_readNotation.list.map h
  exact ⟨trivial, rfl⟩

end Schemas

section Elements

theorem readTag_small {n : Nat} (h : n < 11) (rest : Bytes) :
    readTag (tag n ++ rest) = .ok (n, rest) :=
  readTag_append (by omega) rest

theorem readsBack_word (n : UInt64) :
    ReadsBack (readNumber 8) (littleEndian 8) .endOfInput n.toNat True :=
  .of_forall (readNumber_append n.toNat_lt)

theorem readsBack_bytes (bs : Bytes) : ReadsBack (readBytes bs.length) id .endOfInput bs True :=
  .of_forall (readBytes_append rfl)

/-- An element is read back if it nests no deeper than allowed; if not, that is what fails. -/
theorem readsBack_element {d : Nat} {e : Element} (h : elementSize e < lengthBound) :
    ReadsBack (readElement d) elementBytes (.tooDeep maxDepth) e (e.depth ≤ d) := by
  induction d generalizing e with
  | zero =>
    intro rest
    have := e.depth_pos
    rw [readElement, if_neg (by omega)]
  | succ d ih =>
    intro rest
    rw [readElement]
    cases e with
    | null =>
      simp only [elementBytes, readTag_small (show 0 < 11 by decide), Element.depth,
        Nat.le_add_left, if_true]
    | bool b =>
      have hb := (ReadsBack.of_forall (f := .endOfInput) (readBool_append b)).map Element.bool rest
      simp only [elementBytes, List.append_assoc, readTag_small (show 1 < 11 by decide), hb,
        Element.depth, Nat.le_add_left, if_true]
    | long n =>
      have hn := (readsBack_word n.toUInt64).map
        (fun n => Element.long (UInt64.ofNat n).toInt64) rest
      simp only [elementBytes, List.append_assoc, readTag_small (show 2 < 11 by decide), hn,
        Element.depth, Nat.le_add_left, if_true, UInt64.ofNat_toNat, Int64.toInt64_toUInt64]
    | ulong n =>
      have hn := (readsBack_word n).map
        (fun n => Element.ulong (UInt64.ofNat n)) rest
      simp only [elementBytes, List.append_assoc, readTag_small (show 3 < 11 by decide), hn,
        Element.depth, Nat.le_add_left, if_true, UInt64.ofNat_toNat]
    | double bits =>
      have hn := (readsBack_word bits).map
        (fun n => Element.double (UInt64.ofNat n)) rest
      simp only [elementBytes, List.append_assoc, readTag_small (show 4 < 11 by decide), hn,
        Element.depth, Nat.le_add_left, if_true, UInt64.ofNat_toNat]
    | char c =>
      have hc := (ReadsBack.of_forall (f := .endOfInput) (readChar_append c)).map Element.char rest
      simp only [elementBytes, List.append_assoc, readTag_small (show 5 < 11 by decide), hc,
        Element.depth, Nat.le_add_left, if_true]
    | text s =>
      rw [elementSize] at h
      have hs : s.utf8ByteSize < lengthBound := by omega
      have ht := (readsBack_text .endOfInput hs).map Element.text rest
      simp only [elementBytes, List.append_assoc, readTag_small (show 6 < 11 by decide), ht,
        Element.depth, Nat.le_add_left, if_true]
    | binary bs =>
      rw [elementSize] at h
      have hl : bs.length < lengthBound := by omega
      have hb := (readsBack_bytes bs).map Element.binary rest
      rw [id] at hb
      simp only [elementBytes, List.append_assoc, readTag_small (show 7 < 11 by decide),
        readLength_append hl, hb, Element.depth, Nat.le_add_left, if_true]
    | list items =>
      rw [elementSize, elementsSize_eq] at h
      have hl : items.length < lengthBound := by
        have := length_le_total (l := items) elementSize_pos
        omega
      have hs := ReadsBack.list hl fun e he =>
        ih (e := e) (by have := le_total_of_mem (g := elementSize) he; omega)
      have hm := hs.map Element.list rest
      simp only [listBytes, List.append_assoc] at hm
      simp only [elementBytes, elementsBytes_eq, List.append_assoc,
        readTag_small (show 8 < 11 by decide), hm, Element.depth, Nat.add_comm 1,
        Nat.add_le_add_iff_right, Element.depthAll_le_iff]
    | map entries =>
      rw [elementSize, entriesSize_eq] at h
      have hl : entries.length < lengthBound := by
        have := length_le_total (l := entries) entrySize_pos
        omega
      have hs := ReadsBack.list hl fun x hx => by
        have hx := le_total_of_mem (g := entrySize) hx
        rw [entrySize] at hx
        have h₁ : elementSize x.1 < lengthBound := by omega
        have h₂ : elementSize x.2 < lengthBound := by omega
        exact (ih h₁).pair (ih h₂)
      have hm := hs.map Element.map rest
      simp only [listBytes, List.append_assoc] at hm
      simp only [elementBytes, entriesBytes_eq, List.append_assoc,
        readTag_small (show 9 < 11 by decide), hm, Element.depth, Nat.add_comm 1,
        Nat.add_le_add_iff_right, Element.depthEntries_le_iff]
    | described descriptor body =>
      rw [elementSize] at h
      have hd : descriptor.utf8ByteSize < lengthBound := by omega
      have hb : elementSize body < lengthBound := by omega
      have hp := (readsBack_text (.tooDeep maxDepth) hd).pair (ih hb)
      have hm := hp.map (fun p => Element.described p.1 p.2) rest
      simp only [List.append_assoc] at hm
      simp only [elementBytes, List.append_assoc, readTag_small (show 10 < 11 by decide), hm,
        Element.depth, Nat.add_comm 1, Nat.add_le_add_iff_right, true_and]

theorem canonical_readElement (d : Nat) :
    Canonical (readElement d) elementBytes fun e => e.depth ≤ d := by
  induction d with
  | zero =>
    intro bs e rest h
    simp [readElement] at h
  | succ d ih =>
    intro bs e rest h
    rw [readElement] at h
    split at h
    case h_1 => simp at h
    case h_2 rest₁ ht =>
      obtain ⟨_, rfl⟩ := canonical_readTag _ _ _ ht
      obtain ⟨rfl, rfl⟩ := Prod.mk.inj (Except.ok.inj h)
      exact ⟨Nat.le_add_left 1 d, rfl⟩
    case h_3 rest₁ ht =>
      obtain ⟨_, rfl⟩ := canonical_readTag _ _ _ ht
      obtain ⟨b, rfl, _, rfl⟩ := canonical_readBool.map h
      exact ⟨Nat.le_add_left 1 d, by rw [elementBytes, List.append_assoc]⟩
    case h_4 rest₁ ht =>
      obtain ⟨_, rfl⟩ := canonical_readTag _ _ _ ht
      obtain ⟨n, rfl, hn, rfl⟩ := (canonical_readNumber 8).map h
      refine ⟨Nat.le_add_left 1 d, ?_⟩
      rw [elementBytes, UInt64.toUInt64_toInt64, UInt64.toNat_ofNat_of_lt' hn, List.append_assoc]
    case h_5 rest₁ ht =>
      obtain ⟨_, rfl⟩ := canonical_readTag _ _ _ ht
      obtain ⟨n, rfl, hn, rfl⟩ := (canonical_readNumber 8).map h
      refine ⟨Nat.le_add_left 1 d, ?_⟩
      rw [elementBytes, UInt64.toNat_ofNat_of_lt' hn, List.append_assoc]
    case h_6 rest₁ ht =>
      obtain ⟨_, rfl⟩ := canonical_readTag _ _ _ ht
      obtain ⟨n, rfl, hn, rfl⟩ := (canonical_readNumber 8).map h
      refine ⟨Nat.le_add_left 1 d, ?_⟩
      rw [elementBytes, UInt64.toNat_ofNat_of_lt' hn, List.append_assoc]
    case h_7 rest₁ ht =>
      obtain ⟨_, rfl⟩ := canonical_readTag _ _ _ ht
      obtain ⟨c, rfl, _, rfl⟩ := canonical_readChar.map h
      exact ⟨Nat.le_add_left 1 d, by rw [elementBytes, List.append_assoc]⟩
    case h_8 rest₁ ht =>
      obtain ⟨_, rfl⟩ := canonical_readTag _ _ _ ht
      obtain ⟨s, rfl, _, rfl⟩ := canonical_readText.map h
      exact ⟨Nat.le_add_left 1 d, by rw [elementBytes, List.append_assoc]⟩
    case h_9 rest₁ ht =>
      obtain ⟨_, rfl⟩ := canonical_readTag _ _ _ ht
      split at h
      case h_1 => simp at h
      case h_2 n rest₂ hl =>
        obtain ⟨_, rfl⟩ := canonical_readLength _ _ _ hl
        obtain ⟨bs, rfl, rfl, rfl⟩ := (canonical_readBytes n).map h
        exact ⟨Nat.le_add_left 1 d, by simp only [elementBytes, List.append_assoc, id]⟩
    case h_10 rest₁ ht =>
      obtain ⟨_, rfl⟩ := canonical_readTag _ _ _ ht
      obtain ⟨es, rfl, hes, rfl⟩ := ih.list.map h
      simp only [Element.depth, Nat.add_comm 1, Nat.add_le_add_iff_right, Element.depthAll_le_iff]
      exact ⟨hes, by simp only [elementBytes, elementsBytes_eq, listBytes, List.append_assoc]⟩
    case h_11 rest₁ ht =>
      obtain ⟨_, rfl⟩ := canonical_readTag _ _ _ ht
      obtain ⟨es, rfl, hes, rfl⟩ := (ih.pair ih).list.map h
      simp only [Element.depth, Nat.add_comm 1, Nat.add_le_add_iff_right,
        Element.depthEntries_le_iff]
      exact ⟨hes, by simp only [elementBytes, entriesBytes_eq, listBytes, List.append_assoc]⟩
    case h_12 rest₁ ht =>
      obtain ⟨_, rfl⟩ := canonical_readTag _ _ _ ht
      obtain ⟨p, rfl, ⟨_, hp⟩, rfl⟩ := (canonical_readText.pair ih).map h
      simp only [Element.depth, Nat.add_comm 1, Nat.add_le_add_iff_right]
      exact ⟨hp, by simp only [elementBytes, List.append_assoc]⟩
    case h_13 => simp at h

end Elements

end Wire

end DurableFlow
