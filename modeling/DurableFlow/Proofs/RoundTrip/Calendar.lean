import DurableFlow.Proofs.Environment.Defaults
import DurableFlow.Proofs.RoundTrip.Builtins

/-!
# Dates and times round-trip

A date, a time or a length of time that can be built is written, and its bytes are read as the same value,
over the whole range of its type. A zone is a text of any length, and it is written if it fits in a payload.
-/

namespace DurableFlow

namespace Builtin

/-- The types for dates and times that say nothing of an offset from UTC. -/
def clock : List Builtin :=
  [instant, duration, localDate, localTime, localDateTime, zoneId, year, yearMonth, monthDay, period]

/-- The types for dates and times at an offset from UTC. -/
def zoned : List Builtin := [zonedDateTime, offsetTime, offsetDateTime]

def calendar : List Builtin := clock ++ zoned

variable {b : Builtin} {v : Value}

theorem single_of_mem_clock (hb : b ∈ clock) (h : b ≠ .localDateTime) :
    ∃ write read, b.codec = .single write read := by
  cases b with
  | localDateTime => exact absurd rfl h
  | instant | duration | localDate | localTime | zoneId | year | yearMonth | monthDay | period =>
    exact ⟨_, _, rfl⟩
  | _ => exact absurd hb (by decide)

theorem Builds.isLeaf {write : Value → Except Abort Element}
    {read : (String → Bool) → Element → Except Abort Value} (hb : b.codec = .single write read)
    (hv : b.Builds v) : v.IsLeaf := by
  cases hv with
  | localDateTime | zonedDateTime | offsetTime | offsetDateTime => cases hb
  | _ => trivial

theorem utf8ByteSize_name_le (b : Builtin) : b.name.utf8ByteSize ≤ 25 := by
  cases b <;> decide +kernel

theorem notationSize_schemaEntry_le (b : Builtin) : Wire.notationSize b.schemaEntry ≤ 80 := by
  cases b <;> decide +kernel

end Builtin

namespace Setting

open Builtin

variable {c : Setting} {b : Builtin} {v : Value}

theorem exists_keeps_single (hc : c.Serves b) {write : Value → Except Abort Element}
    {read : (String → Bool) → Element → Except Abort Value} (hb : b.codec = .single write read)
    (hzone : b ≠ .zoneId) (hv : b.Builds v) :
    ∃ e, c.Keeps (.builtin b) v e [b.schemaEntry] ∧ e.depth ≤ 3 ∧ Wire.elementSize e ≤ 97 := by
  obtain ⟨body, hkeeps, hdepth, hsize⟩ := exists_keeps hb hzone hv
  refine ⟨_, keeps_of_codec hc (hv.isLeaf hb) hkeeps, ?_, ?_⟩
  · rw [Element.depth]
    omega
  · have hname := b.utf8ByteSize_name_le
    rw [Wire.elementSize]
    omega

variable (hc : ∀ b ∈ clock, c.Serves b)

include hc

theorem exists_keeps_localDateTime (hv : localDateTime.Builds v) :
    ∃ e ns, c.Keeps (.builtin .localDateTime) v e ns ∧ e.depth ≤ 5 ∧
      Wire.elementSize e + Wire.notationsSize ns ≤ 500 := by
  cases hv with
  | localDateTime hdate htime =>
    obtain ⟨e, hkeeps, hdepth, hsize⟩ := exists_keeps_single (hc .localDate (by decide)) rfl (by decide) hdate
    obtain ⟨e', hkeeps', hdepth', hsize'⟩ :=
      exists_keeps_single (hc .localTime (by decide)) rfl (by decide) htime
    have hserves := hc .localDateTime (by decide)
    have hparts := PartsWritten.value hkeeps.writes (.value hkeeps'.writes .nil)
    refine ⟨_, _, ⟨writesAs_of_parts hserves rfl hparts, fun s => ?_⟩, ?_, ?_⟩
    · rw [readElement_of_parts hserves rfl rfl, List.map_cons, List.map_cons,
        readParts_value (hkeeps.reads s), readParts_value (hkeeps'.reads s)]
      rfl
    · simp only [Element.depth, Element.depthAll]
      omega
    · have hname := Builtin.localDateTime.utf8ByteSize_name_le
      have hentry := Builtin.localDateTime.notationSize_schemaEntry_le
      have hdate' := Builtin.localDate.notationSize_schemaEntry_le
      have htime' := Builtin.localTime.notationSize_schemaEntry_le
      simp only [Wire.elementSize, Wire.elementsSize, Wire.notationsSize_append, Wire.notationsSize]
      omega

theorem exists_keeps_clock (hb : b ∈ clock) (hzone : b ≠ .zoneId) (hv : b.Builds v) :
    ∃ e ns, c.Keeps (.builtin b) v e ns ∧ e.depth ≤ 5 ∧
      Wire.elementSize e + Wire.notationsSize ns ≤ 500 := by
  by_cases hparts : b = .localDateTime
  · subst hparts
    exact exists_keeps_localDateTime hc hv
  · obtain ⟨write, read, hcodec⟩ := single_of_mem_clock hb hparts
    obtain ⟨e, hkeeps, hdepth, hsize⟩ := exists_keeps_single (hc b hb) hcodec hzone hv
    have hentry := b.notationSize_schemaEntry_le
    refine ⟨e, _, hkeeps, by omega, ?_⟩
    simp only [Wire.notationsSize]
    omega

end Setting

/-- The length in bytes of the longest zone that fits in a payload, beside what describes it. -/
def ZoneId.maxBytes : Nat := Envelope.maxPayload - 93

example : ZoneId.maxBytes = 67108771 := by decide

theorem Envelope.payloadSize_zone (text : String) :
    payloadSize ⟨Schema.empty.add Builtin.zoneId.schemaEntry,
      .described Builtin.zoneId.name (.text text)⟩ = 93 + text.utf8ByteSize := by
  have hdescription : Wire.schemaSize (Schema.empty.add Builtin.zoneId.schemaEntry) +
      (12 + Builtin.zoneId.name.utf8ByteSize + 12) = 93 := by decide +kernel
  change Wire.schemaSize (Schema.empty.add Builtin.zoneId.schemaEntry) + Wire.elementSize _ = _
  rw [Wire.elementSize, Wire.elementSize]
  omega

namespace Setting

variable {c : Setting} {id : String} {z : ZoneId}

theorem keeps_zone (hc : c.Serves .zoneId) (h : ZoneId.of id = .ok z) :
    c.Keeps (.builtin .zoneId) (.atom (.zone z)) (.described Builtin.zoneId.name (.text z.id))
      [Builtin.zoneId.schemaEntry] := by
  have hleaf : (Value.atom (.zone z)).IsLeaf := trivial
  exact keeps_of_codec hc hleaf (Builtin.keeps_zone h)

theorem exists_bytes_zone (hc : c.Serves .zoneId) (h : ZoneId.of id = .ok z)
    (hlength : z.id.utf8ByteSize ≤ ZoneId.maxBytes) (m : Magic) :
    ∃ bs, c.serialize m (.builtin .zoneId) (.atom (.zone z)) = .ok bs ∧
      c.deserialize m (.builtin .zoneId) bs = .ok (.atom (.zone z)) := by
  have hsize := Envelope.payloadSize_zone z.id
  rw [ZoneId.maxBytes, Envelope.maxPayload] at hlength
  refine (keeps_zone hc h).exists_bytes (Nat.le_of_ble_eq_true rfl) (Nat.le_trans (Nat.le_of_eq hsize) ?_) m
  rw [Envelope.maxPayload]
  omega

theorem serialize_zone_of_tooLong (hc : c.Serves .zoneId) (h : ZoneId.of id = .ok z)
    (hlength : ZoneId.maxBytes < z.id.utf8ByteSize) (m : Magic) :
    c.serialize m (.builtin .zoneId) (.atom (.zone z)) = .error (.error (.malformed .tooLong)) := by
  have hsize := Envelope.payloadSize_zone z.id
  rw [ZoneId.maxBytes, Envelope.maxPayload] at hlength
  refine serialize_of_tooLong (keeps_zone hc h).writes (Nat.lt_of_lt_of_eq ?_ hsize.symm) m
  rw [Envelope.maxPayload]
  omega

end Setting

theorem ZoneId.of_replicate {n : Nat} (hn : n ≠ 0) :
    ZoneId.of (.ofList (.replicate n 'a')) = .ok ⟨.ofList (.replicate n 'a')⟩ := by
  have hall : ∀ c ∈ List.replicate n 'a', isZoneChar c = true := by
    intro c hc
    rw [List.eq_of_mem_replicate hc]
    decide
  have hne : List.replicate n 'a' ≠ [] := by simpa using hn
  have hends : some 'a' ≠ some '/' := by decide
  refine if_pos ?_
  rw [String.toList_ofList, List.head?_replicate, List.getLast?_replicate, if_neg hn]
  exact ⟨hne, hends, hends, List.all_eq_true.2 hall⟩

theorem utf8ByteSize_replicate (n : Nat) : (String.ofList (.replicate n 'a')).utf8ByteSize = n := by
  have ha : (String.utf8EncodeChar 'a').length = 1 := by decide
  rw [← Text.Utf8.length_encode, Text.Utf8.encode, String.toList_ofList, List.length_flatMap,
    List.map_replicate, ha, List.sum_replicate_nat, Nat.mul_one]

section

variable {p : Plugins} {key : Serializer} {d d₁ : Draft} {st : Store} {f : Nat} {b : Builtin} {v : Value}

theorem Plugins.LeavesDefaults.serves {bs : List Builtin} (hready : p.LeavesDefaults key d d₁ bs)
    (hf : (st.factory f).registry = d₁.registry) (hb : b ∈ bs) (hcalendar : b ∈ Builtin.calendar) :
    (st.setting f).Serves b := by
  refine hready.serves_of_ne hf hb ?_
  rintro rfl
  exact absurd hcalendar (by decide)

namespace Call

/-- After standard registration a value for dates and times is written and read again as it was, unless it is
a zone that is too long for a payload. -/
theorem deserialize_of_serialize_clock (hready : p.LeavesDefaults key d d₁ Builtin.clock)
    (hf : (st.factory f).registry = d₁.registry) (hb : b ∈ Builtin.clock) (hv : b.Builds v) (m : Magic) :
    (∃ bs, runOn (serializeWith f m (.builtin b) v) st = (.ok bs, st) ∧
      runOn (deserializeWith f m (.builtin b) bs) st = (.ok v, st)) ∨
    ∃ z, v = .atom (.zone z) ∧ ZoneId.maxBytes < z.id.utf8ByteSize ∧
      runOn (serializeWith f m (.builtin b) v) st = (.error (.error (.malformed .tooLong)), st) := by
  have hc : ∀ b ∈ Builtin.clock, (st.setting f).Serves b := fun b hb =>
    hready.serves hf hb (List.mem_append_left _ hb)
  simp only [runOn_serializeWith, runOn_deserializeWith, Prod.mk.injEq, and_true]
  by_cases hzone : b = .zoneId
  · subst hzone
    cases hv with
    | @zoneId id z h =>
      have hserves := hc _ hb
      by_cases hlength : z.id.utf8ByteSize ≤ ZoneId.maxBytes
      · exact .inl (Setting.exists_bytes_zone hserves h hlength m)
      · have hlong : ZoneId.maxBytes < z.id.utf8ByteSize := by omega
        exact .inr ⟨z, rfl, hlong, Setting.serialize_zone_of_tooLong hserves h hlong m⟩
  · obtain ⟨e, ns, hkeeps, hdepth, hsize⟩ := Setting.exists_keeps_clock hc hb hzone hv
    have hpayload := Envelope.payloadSize_le ns e
    refine .inl (hkeeps.exists_bytes ?_ ?_ m)
    · rw [Wire.maxDepth]
      omega
    · rw [Envelope.maxPayload]
      omega

def bureau : Store := { Store.empty [] with factories := [⟨1, 1, .standard⟩] }

theorem leavesDefaults_bureau {bs : List Builtin} (hbs : .publicKey ∉ bs) :
    Plugins.empty.LeavesDefaults (Builtin.serializer .publicKey) ⟨.empty, .new 1 false, []⟩
      ⟨(bureau.factory 0).registry, .new 1 false, []⟩ bs :=
  Plugins.leavesDefaults_of_pristine rfl (List.forall_mem_nil _) _ hbs

/-- The shortest duration of all comes back. -/
theorem deserialize_of_serialize_shortest :
    let v : Value := .atom (.duration ⟨-Duration.limit⟩)
    Builtin.duration.Builds v ∧
      ∃ bs, runOn (serializeWith 0 ⟨1, 0⟩ (.builtin .duration) v) bureau = (.ok bs, bureau) ∧
        runOn (deserializeWith 0 ⟨1, 0⟩ (.builtin .duration) bs) bureau = (.ok v, bureau) := by
  have hready := leavesDefaults_bureau (show .publicKey ∉ Builtin.clock by decide)
  have hlimit : Duration.ofNanos? (-Duration.limit) = some ⟨-Duration.limit⟩ := if_pos (by decide)
  refine ⟨.duration hlimit, ?_⟩
  rcases deserialize_of_serialize_clock hready rfl (by decide) (.duration hlimit) ⟨1, 0⟩ with
    hback | ⟨z, hz, -⟩
  · exact hback
  · cases hz

/-- A zone as long as a payload can be built, but what describes it leaves too little room to write it. -/
theorem tooLong_of_serialize_zone :
    let zone : ZoneId := ⟨.ofList (.replicate Envelope.maxPayload 'a')⟩
    Builtin.zoneId.Builds (.atom (.zone zone)) ∧
      Plugins.empty.LeavesDefaults (Builtin.serializer .publicKey) ⟨.empty, .new 1 false, []⟩
        ⟨(bureau.factory 0).registry, .new 1 false, []⟩ Builtin.clock ∧
      runOn (serializeWith 0 ⟨1, 0⟩ (.builtin .zoneId) (.atom (.zone zone))) bureau =
        (.error (.error (.malformed .tooLong)), bureau) := by
  have hnonempty : Envelope.maxPayload ≠ 0 := by decide
  have hbuilt := ZoneId.of_replicate hnonempty
  have hlong : ZoneId.maxBytes < Envelope.maxPayload := by decide
  have hready := leavesDefaults_bureau (show .publicKey ∉ Builtin.clock by decide)
  have hserves : (bureau.setting 0).Serves .zoneId := hready.serves rfl (by decide) (by decide)
  -- The text itself is never looked at, since how it is made says how long it is.
  rw [← utf8ByteSize_replicate Envelope.maxPayload] at hlong
  refine ⟨.zoneId hbuilt, hready, ?_⟩
  rw [runOn_serializeWith, Setting.serialize_zone_of_tooLong hserves hbuilt hlong]

end Call

end

end DurableFlow
