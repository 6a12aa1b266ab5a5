import DurableFlow.Proofs.RoundTrip.Calendar
import DurableFlow.Proofs.Values.Decimal

/-!
# Decimals round-trip

A decimal is written as the text of its number and its scale. It may have digits of any number, and it is
written if they fit in a payload.
-/

namespace DurableFlow

/-- The length in bytes of the longest number without a point that fits in a payload as a decimal, beside
what describes it. -/
def Decimal.maxBytes : Nat := Envelope.maxPayload - 129

namespace Builtin

theorem readDecimal_eq {d : Decimal} (hd : d.Canonical) :
    readDecimal (.list [.text d.unscaledText, .ofInt d.scale.toNat]) = .ok d := by
  have hlt := d.scale.toNat_lt
  have htoInt : (Int64.ofInt d.scale.toNat).toInt = d.scale.toNat := Element.toInt_ofInt (by omega) (by omega)
  have hholds : IntKind.uint.holds d.scale.toNat = true := by
    refine IntKind.holds_iff.2 ⟨Int.natCast_nonneg _, ?_⟩
    change (d.scale.toNat : Int) ≤ 4294967295
    omega
  simp only [readDecimal, Element.asPair_list, Element.asLong_ofInt, bind_ok, htoInt, hholds, if_true,
    Int.toNat_natCast, UInt32.ofNat_toNat]
  change InvalidValue.lift (Decimal.ofUnscaled d.unscaledText d.scale) = _
  rw [Decimal.ofUnscaled_unscaledText hd]
  rfl

theorem keeps_decimal {d : Decimal} (hd : d.Canonical) : decimalCodec.Keeps (.atom (.decimal d))
    (.list [.text d.unscaledText, .ofInt d.scale.toNat]) := by
  refine keeps_atom rfl ?_
  rw [readDecimal_eq hd, bind_ok]
  rfl

end Builtin

theorem Envelope.payloadSize_decimal (text : String) (scale : Int) :
    payloadSize ⟨Schema.empty.add Builtin.decimal.schemaEntry,
      .described Builtin.decimal.name (.list [.text text, .ofInt scale])⟩ = 129 + text.utf8ByteSize := by
  have hdescription : Wire.schemaSize (Schema.empty.add Builtin.decimal.schemaEntry) +
      (12 + Builtin.decimal.name.utf8ByteSize + 36) = 129 := by decide +kernel
  change Wire.schemaSize (Schema.empty.add Builtin.decimal.schemaEntry) + Wire.elementSize _ = _
  simp only [Wire.elementSize, Wire.elementsSize, Element.ofInt]
  omega

namespace Setting

variable {c : Setting}

theorem keeps_decimal (hc : c.Serves .decimal) {d : Decimal} (hd : d.Canonical) :
    c.Keeps (.builtin .decimal) (.atom (.decimal d))
      (.described Builtin.decimal.name (.list [.text d.unscaledText, .ofInt d.scale.toNat]))
      [Builtin.decimal.schemaEntry] := by
  have hleaf : (Value.atom (.decimal d)).IsLeaf := trivial
  exact keeps_of_codec hc hleaf (Builtin.keeps_decimal hd)

theorem exists_bytes_decimal (hc : c.Serves .decimal) {d : Decimal} (hd : d.Canonical)
    (hshort : d.unscaledText.utf8ByteSize ≤ Decimal.maxBytes) (m : Magic) :
    ∃ bs, c.serialize m (.builtin .decimal) (.atom (.decimal d)) = .ok bs ∧
      c.deserialize m (.builtin .decimal) bs = .ok (.atom (.decimal d)) := by
  have hdepth : Element.depth (.described Builtin.decimal.name
      (.list [.text d.unscaledText, .ofInt d.scale.toNat])) ≤ Wire.maxDepth := by
    simp only [Element.depth, Element.depthAll, Element.ofInt, Wire.maxDepth]
    omega
  have hsize := Envelope.payloadSize_decimal d.unscaledText d.scale.toNat
  have hmax : Decimal.maxBytes + 129 = Envelope.maxPayload := rfl
  refine (keeps_decimal hc hd).exists_bytes hdepth (Nat.le_trans (Nat.le_of_eq hsize) ?_) m
  omega

theorem tooLong_of_decimal (hc : c.Serves .decimal) {d : Decimal} (hd : d.Canonical)
    (hlong : Decimal.maxBytes < d.unscaledText.utf8ByteSize) (m : Magic) :
    c.serialize m (.builtin .decimal) (.atom (.decimal d)) = .error (.error (.malformed .tooLong)) := by
  have hsize := Envelope.payloadSize_decimal d.unscaledText d.scale.toNat
  have hmax : Decimal.maxBytes + 129 = Envelope.maxPayload := rfl
  refine serialize_of_tooLong (keeps_decimal hc hd).writes (Nat.lt_of_lt_of_eq ?_ hsize.symm) m
  omega

end Setting

namespace Call

variable {p : Plugins} {key : Serializer} {d₀ d₁ : Draft} {st : Store} {f : Nat}

/-- A decimal that a text makes is in canonical form, where its number and its scale tell it from any other. It
is read again from its text with a point, from its number and its scale, and after standard registration from
its bytes, where its number is not too long for a payload. -/
theorem deserialize_of_serialize_decimal (hready : p.LeavesDefaults key d₀ d₁ [.decimal])
    (hf : (st.factory f).registry = d₁.registry) {d : Decimal} (hd : d.Obtainable) (m : Magic) :
    d.Canonical ∧
    (∀ d' : Decimal, d'.Obtainable → (d = d' ↔ d.unscaled = d'.unscaled ∧ d.scale = d'.scale)) ∧
    Decimal.parse d.toString = .ok d ∧
    Decimal.ofUnscaled d.unscaledText d.scale = .ok d ∧
    (d.unscaledText.utf8ByteSize ≤ Decimal.maxBytes →
      ∃ bs, runOn (serializeWith f m (.builtin .decimal) (.atom (.decimal d))) st = (.ok bs, st) ∧
        runOn (deserializeWith f m (.builtin .decimal) bs) st = (.ok (.atom (.decimal d)), st)) ∧
    (Decimal.maxBytes < d.unscaledText.utf8ByteSize →
      runOn (serializeWith f m (.builtin .decimal) (.atom (.decimal d))) st =
        (.error (.error (.malformed .tooLong)), st)) := by
  have hcanonical := hd.canonical
  have hserves : (st.setting f).Serves .decimal :=
    hready.serves_of_ne hf List.mem_cons_self (by decide)
  simp only [runOn_serializeWith, runOn_deserializeWith, Prod.mk.injEq, and_true]
  exact ⟨hcanonical, fun d' hd' => hcanonical.eq_iff hd'.canonical, Decimal.parse_toString hcanonical,
    Decimal.ofUnscaled_unscaledText hcanonical,
    fun hshort => Setting.exists_bytes_decimal hserves hcanonical hshort m,
    fun hlong => Setting.tooLong_of_decimal hserves hcanonical hlong m⟩

/-- A zero with digits after its point loses its sign, and its bytes are short enough. -/
theorem deserialize_of_serialize_zero :
    let zero : Decimal := ⟨false, ['0'], 2⟩
    Decimal.parse "-0.00" = .ok zero ∧
      ∃ bs, runOn (serializeWith 0 ⟨1, 0⟩ (.builtin .decimal) (.atom (.decimal zero))) bureau =
          (.ok bs, bureau) ∧
        runOn (deserializeWith 0 ⟨1, 0⟩ (.builtin .decimal) bs) bureau =
          (.ok (.atom (.decimal zero)), bureau) := by
  intro zero
  have hready := leavesDefaults_bureau (show .publicKey ∉ [Builtin.decimal] by decide)
  have hzero : Decimal.parse "-0.00" = .ok zero := by decide +kernel
  obtain ⟨-, -, -, -, hback, -⟩ :=
    deserialize_of_serialize_decimal hready rfl (.inl ⟨_, hzero⟩) ⟨1, 0⟩
  exact ⟨hzero, hback (by decide)⟩

/-- A number as long as a payload makes a decimal, but what describes it leaves too little room to write it. -/
theorem tooLong_of_serialize_decimal :
    let text : String := .ofList (.replicate Envelope.maxPayload '1')
    ∃ d, Decimal.ofUnscaled text 0 = .ok d ∧
      Plugins.empty.LeavesDefaults (Builtin.serializer .publicKey) ⟨.empty, .new 1 false, []⟩
        ⟨(bureau.factory 0).registry, .new 1 false, []⟩ [.decimal] ∧
      runOn (serializeWith 0 ⟨1, 0⟩ (.builtin .decimal) (.atom (.decimal d))) bureau =
        (.error (.error (.malformed .tooLong)), bureau) := by
  intro text
  have hnonempty : Envelope.maxPayload ≠ 0 := by decide
  have hd : Decimal.ofUnscaled text 0 = .ok ⟨false, .replicate Envelope.maxPayload '1', 0⟩ :=
    Decimal.ofUnscaled_replicate hnonempty 0
  generalize hdigits : (⟨false, .replicate Envelope.maxPayload '1', 0⟩ : Decimal) = d at hd
  have hready := leavesDefaults_bureau (show .publicKey ∉ [Builtin.decimal] by decide)
  have hserves : (bureau.setting 0).Serves .decimal :=
    hready.serves_of_ne rfl List.mem_cons_self (by decide)
  -- The text itself is never looked at, since how it is made says how long it is.
  have hbytes : d.unscaledText.utf8ByteSize = Envelope.maxPayload := by
    rw [← hdigits]
    exact (Decimal.utf8ByteSize_ofList (Decimal.isDigits_replicate hnonempty).2).trans List.length_replicate
  have hlong : Decimal.maxBytes < d.unscaledText.utf8ByteSize := by
    rw [hbytes]
    exact Nat.sub_lt (by decide) (by decide)
  have hcanonical := Decimal.Obtainable.canonical (.inr ⟨text, 0, hd⟩)
  refine ⟨d, hd, hready, ?_⟩
  rw [runOn_serializeWith, Setting.tooLong_of_decimal hserves hcanonical hlong]

end Call

end DurableFlow
