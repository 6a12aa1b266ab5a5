import DurableFlow.Proofs.RoundTrip.Calendar

/-!
# Values with an offset from UTC

Any offset that a clock can have is written as it is, but only one within 18 hours is read. Apart from this
a value with an offset comes back as it was.
-/

namespace DurableFlow

/-- The offset that a date or time comes with. -/
def Value.offset? : Value → Option Int
  | .seq [_, .int n] => some n
  | .seq [_, .int n, _] => some n
  | _ => none

namespace Builtin

variable {b : Builtin} {v : Value}

theorem Builds.proper_offset (hb : b ∈ zoned) (hv : b.Builds v) :
    ∃ n, v.offset? = some n ∧ Offset.isProper n = true := by
  cases hv with
  | zonedDateTime _ hoffset _ => exact ⟨_, rfl, hoffset⟩
  | offsetTime _ hoffset => exact ⟨_, rfl, hoffset⟩
  | offsetDateTime _ _ hoffset _ => exact ⟨_, rfl, hoffset⟩
  | _ => exact absurd hb (by decide)

end Builtin

/-- A proper offset is read if it is within the bound, and is refused as a value otherwise. -/
theorem readOffset_bind {n : Int} (hn : Offset.isProper n = true) {α : Type}
    (next : Value → Except Abort α) :
    (readOffset (.ofInt n) >>= next) =
      if n.natAbs ≤ Offset.maxSeconds then next (.int n)
      else .error (.error (.invalidValue (.temporal "offset" n))) := by
  rw [Offset.isProper, Bool.and_eq_true, decide_eq_true_eq, decide_eq_true_eq] at hn
  have htoInt : (Int64.ofInt n).toInt = n := Element.toInt_ofInt (by omega) (by omega)
  have hholds : IntKind.int.holds n = true := IntKind.holds_iff.2 (by
    change -2147483648 ≤ n ∧ n ≤ 2147483647
    omega)
  rw [readOffset, Element.asLong_ofInt, Builtin.bind_ok, htoInt, if_pos hholds, Offset.check]
  split_ifs <;> rfl

namespace Setting

open Builtin

variable {c : Setting} {b : Builtin} {v : Value} {n : Int}

theorem readParts_offset (hn : Offset.isProper n = true) (ps : List Part) (es : List Element)
    (r : Reader) (rs : List Reader) :
    readParts false (.offset :: ps) (.ofInt n :: es) (r :: rs) =
      if n.natAbs ≤ Offset.maxSeconds then do return .int n :: (← readParts false ps es rs)
      else .error (.error (.invalidValue (.temporal "offset" n))) :=
  readOffset_bind hn _

/-- The value is written, and what is written is read as the value or refused for its offset. -/
def KeepsNear (c : Setting) (b : Builtin) (v : Value) (n : Int) : Prop :=
  ∃ e ns, c.WritesAs (.builtin b) v e ns ∧ e.depth ≤ Wire.maxDepth ∧
    ∀ s, c.readElement s e (.value (.builtin b)) =
      if n.natAbs ≤ Offset.maxSeconds then .ok v
      else .error (.error (.invalidValue (.temporal "offset" n)))

theorem keepsNear_of_parts (hb : c.Serves b) {what : String} {t : Ty} {ps : List Part}
    {check : List Value → Except Abort Unit}
    (hcodec : b.codec = .composite what false (.value t :: .offset :: ps) check)
    {e : Element} {ns : List TypeNotation} (hkeeps : c.Keeps t v e ns) (hdepth : e.depth ≤ 5)
    (hn : Offset.isProper n = true) {vs : List Value} {es : List Element} {ns' : List TypeNotation}
    (hlater : c.PartsWritten ps vs es ns') (hdepths : Element.depthAll es ≤ 5)
    (hlength : es.length = ps.length)
    (hreads : ∀ s, readParts false ps es (es.map (c.readElement s)) = .ok vs)
    (hcheck : check (v :: .int n :: vs) = .ok ()) :
    c.KeepsNear b (.seq (v :: .int n :: vs)) n := by
  refine ⟨_, _, writesAs_of_parts hb hcodec (.value hkeeps.writes (.offset n hlater)), ?_, fun s => ?_⟩
  · simp only [Element.depth, Element.depthAll, Element.ofInt, Wire.maxDepth]
    omega
  · have htuple : (e :: .ofInt n :: es).length = (Part.value t :: .offset :: ps).length := by
      rw [List.length_cons, List.length_cons, hlength, List.length_cons, List.length_cons]
    rw [readElement_of_parts hb hcodec htuple, List.map_cons, List.map_cons,
      readParts_value (hkeeps.reads s), readParts_offset hn, hreads]
    split_ifs
    · change (do
        check (v :: .int n :: vs)
        return Value.seq _) = _
      rw [hcheck]
      rfl
    · rfl

theorem keepsNear_of_builds (hc : ∀ b ∈ calendar, c.Serves b) (hv : b.Builds v)
    (hn : v.offset? = some n) : c.KeepsNear b v n := by
  have hclock : ∀ b ∈ clock, c.Serves b := fun b hb => hc b (List.mem_append_left _ hb)
  cases hv with
  | zonedDateTime hdateTime hoffset hzone =>
    obtain rfl := Option.some.inj hn
    obtain ⟨e, ns, hkeeps, hdepth, -⟩ := exists_keeps_localDateTime hclock hdateTime
    cases hzone with
    | zoneId h =>
      have hzone := keeps_zone (hc .zoneId (by decide)) h
      refine keepsNear_of_parts (hc .zonedDateTime (by decide)) rfl hkeeps hdepth hoffset
        (.value hzone.writes .nil) (Nat.le_of_ble_eq_true rfl) rfl (fun s => ?_) rfl
      rw [List.map_cons, readParts_value (hzone.reads s)]
      rfl
  | offsetTime htime hoffset =>
    obtain rfl := Option.some.inj hn
    obtain ⟨e, hkeeps, hdepth, -⟩ :=
      exists_keeps_single (hc .localTime (by decide)) rfl (by decide) htime
    exact keepsNear_of_parts (hc .offsetTime (by decide)) rfl hkeeps (by omega) hoffset .nil
      (Nat.zero_le 5) rfl (fun _ => rfl) rfl
  | offsetDateTime hdate htime hoffset hutc =>
    obtain rfl := Option.some.inj hn
    obtain ⟨e, ns, hkeeps, hdepth, -⟩ := exists_keeps_localDateTime hclock (.localDateTime hdate htime)
    exact keepsNear_of_parts (hc .offsetDateTime (by decide)) rfl hkeeps hdepth hoffset .nil
      (Nat.zero_le 5) rfl (fun _ => rfl) (if_pos hutc)
  -- No other value has a number for its second part.
  | localDateTime _ htime =>
    cases htime
    cases hn
  | _ => cases hn

end Setting

namespace Call

variable {p : Plugins} {key : Serializer} {d d₁ : Draft} {st : Store} {f : Nat} {b : Builtin} {v : Value}

/-- After standard registration the bytes of a value with an offset are read as the value if the offset is
within 18 hours, and are refused for the offset otherwise. -/
theorem deserialize_of_serialize_zoned (hready : p.LeavesDefaults key d d₁ Builtin.calendar)
    (hf : (st.factory f).registry = d₁.registry) (hb : b ∈ Builtin.zoned) (hv : b.Builds v) {m : Magic}
    {bs : Bytes} (hbs : runOn (serializeWith f m (.builtin b) v) st = (.ok bs, st)) :
    ∃ n, v.offset? = some n ∧ Offset.isProper n = true ∧
      runOn (deserializeWith f m (.builtin b) bs) st =
        (if n.natAbs ≤ Offset.maxSeconds then .ok v
          else .error (.error (.invalidValue (.temporal "offset" n))), st) := by
  have hc : ∀ b ∈ Builtin.calendar, (st.setting f).Serves b := fun b hb => hready.serves hf hb hb
  obtain ⟨n, hn, hproper⟩ := hv.proper_offset hb
  obtain ⟨e, ns, hwrites, hdepth, hreads⟩ := Setting.keepsNear_of_builds hc hv hn
  rw [runOn_serializeWith] at hbs
  refine ⟨n, hn, hproper, ?_⟩
  rw [runOn_deserializeWith, Setting.deserialize_of_writesAs hwrites hdepth (Prod.mk.inj hbs).1, hreads]

def farTime : Value := .seq [.atom (.time ⟨9, 0, 0, 0⟩), .int 64801]

theorem builds_farTime : Builtin.offsetTime.Builds farTime :=
  .offsetTime (.localTime (show LocalTime.of? 9 0 0 0 = some ⟨9, 0, 0, 0⟩ by decide)) (by decide)

theorem refused_of_serialize_farTime :
    Builtin.offsetTime.Builds farTime ∧
      ∃ bs, runOn (serializeWith 0 ⟨1, 0⟩ (.builtin .offsetTime) farTime) bureau = (.ok bs, bureau) ∧
        runOn (deserializeWith 0 ⟨1, 0⟩ (.builtin .offsetTime) bs) bureau =
          (.error (.error (.invalidValue (.temporal "offset" 64801))), bureau) := by
  have hready := leavesDefaults_bureau (show .publicKey ∉ Builtin.calendar by decide)
  obtain ⟨bs, hbs⟩ : ∃ bs, runOn (serializeWith 0 ⟨1, 0⟩ (.builtin .offsetTime) farTime) bureau =
      (.ok bs, bureau) := by
    rw [runOn_serializeWith]
    exact ⟨_, rfl⟩
  obtain ⟨n, hn, -, hread⟩ :=
    deserialize_of_serialize_zoned hready rfl (by decide) builds_farTime hbs
  obtain rfl := Option.some.inj hn
  exact ⟨builds_farTime, bs, hbs, hread⟩

end Call

end DurableFlow
