import DurableFlow.Proofs.Wire.Element

/-!
# The exact format of envelopes

The bytes of an envelope and those that start with them are what is decoded as this envelope, provided
that its body nests no deeper than allowed. An envelope that nests deeper is written all the same, and
then refused for its depth.
-/

namespace DurableFlow

namespace Magic

theorem matchesFront_iff {m : Magic} {bs : Bytes} : m.matchesFront bs = true ↔ m.bytes <+: bs :=
  List.isPrefixOf_iff_prefix

end Magic

namespace Envelope

variable {m : Magic} {env : Envelope} {x : Bytes}

theorem encode_eq_ok_iff :
    env.encode m = .ok x ↔ env.payloadSize ≤ maxPayload ∧ x = m.bytes ++ env.payload := by
  rw [encode]
  split_ifs with h
  · rw [Except.ok.injEq, eq_comm]
    exact (and_iff_right h).symm
  · simp [h]

theorem readsBack (h : env.payloadSize ≤ maxPayload) :
    Wire.ReadsBack read payload (.tooDeep Wire.maxDepth) env (env.body.depth ≤ Wire.maxDepth) := by
  intro rest
  have hmax : maxPayload < Wire.lengthBound := by decide
  rw [payloadSize] at h
  have hs : Wire.schemaSize env.schema < Wire.lengthBound := by omega
  have hb : Wire.elementSize env.body < Wire.lengthBound := by omega
  have hp := (Wire.readsBack_schema (.tooDeep Wire.maxDepth) hs).pair
    (Wire.readsBack_element (d := Wire.maxDepth) hb)
  have := hp.map (fun p => Envelope.mk p.1 p.2) rest
  simp only [true_and] at this
  exact this

theorem canonical_read :
    Wire.Canonical read payload fun env => env.body.depth ≤ Wire.maxDepth := by
  intro bs env rest h
  obtain ⟨p, rfl, ⟨_, hp⟩, rfl⟩ :=
    (Wire.canonical_readSchema.pair (Wire.canonical_readElement Wire.maxDepth)).map h
  exact ⟨hp, rfl⟩

/-- Only the depth of its body stands between an envelope that was written and its being read. -/
theorem decode_append (h : env.encode m = .ok x) (rest : Bytes) :
    decode m (x ++ rest) = if env.body.depth ≤ Wire.maxDepth then .ok env
      else .error (.malformed (.tooDeep Wire.maxDepth)) := by
  obtain ⟨hsize, rfl⟩ := encode_eq_ok_iff.1 h
  have hm : m.matchesFront (m.bytes ++ env.payload ++ rest) = true := by
    rw [Magic.matchesFront_iff, List.append_assoc]
    exact List.prefix_append _ _
  rw [decode, if_pos hm, List.append_assoc, List.drop_left, readsBack hsize]
  split_ifs <;> rfl

theorem depth_le_of_decode (h : env.encode m = .ok x) (hok : (decode m x).isOk = true) :
    env.body.depth ≤ Wire.maxDepth := by
  have hdecode := decode_append h []
  rw [List.append_nil] at hdecode
  rw [hdecode] at hok
  split_ifs at hok with hdepth
  · exact hdepth
  · cases hok

theorem exists_of_decode {bs : Bytes} (h : decode m bs = .ok env) :
    env.body.depth ≤ Wire.maxDepth ∧ ∃ rest, bs = m.bytes ++ env.payload ++ rest := by
  rw [decode] at h
  split_ifs at h with hm
  split at h
  case h_1 env' rest hr =>
    obtain rfl := Except.ok.inj h
    obtain ⟨hd, hbs⟩ := canonical_read _ _ _ hr
    obtain ⟨tail, rfl⟩ := Magic.matchesFront_iff.1 hm
    rw [List.drop_left] at hbs
    exact ⟨hd, rest, by rw [hbs, List.append_assoc]⟩
  case h_2 => simp at h

theorem encode_inj {env' : Envelope} (h : env.encode m = .ok x) (h' : env'.encode m = .ok x)
    (hd : env.body.depth ≤ Wire.maxDepth) : env' = env := by
  have hr := decode_append h []
  have hr' := decode_append h' []
  rw [hr, if_pos hd] at hr'
  split_ifs at hr' with hd'
  exact (Except.ok.inj hr').symm

/-- Bytes are decoded as an envelope exactly if they start with its form and it nests no deeper than
allowed. -/
theorem decode_ok_iff_prefix (h : env.encode m = .ok x) (bs : Bytes) :
    decode m bs = .ok env ↔ x <+: bs ∧ env.body.depth ≤ Wire.maxDepth := by
  constructor
  · intro hd
    obtain ⟨hdepth, rest, rfl⟩ := exists_of_decode hd
    rw [(encode_eq_ok_iff.1 h).2]
    exact ⟨List.prefix_append _ _, hdepth⟩
  · rintro ⟨⟨rest, rfl⟩, hdepth⟩
    rw [decode_append h, if_pos hdepth]

def sample : Envelope where
  schema := ⟨[.composite "app.Foo" ["n", "é"], .restricted "time.Instant" "builtin:time.Instant"]⟩
  body := .described "app.Foo" (.list [.long (-2), .map [(.char 'é', .double 0x7FF8000000000001)], .null])

theorem decode_ok_iff_prefix_sample :
    sample.encode ⟨1, 0⟩ = .ok (Magic.bytes ⟨1, 0⟩ ++ sample.payload) ∧
      (decode ⟨1, 0⟩ (Magic.bytes ⟨1, 0⟩ ++ sample.payload ++ [0]) = .ok sample ↔
        Magic.bytes ⟨1, 0⟩ ++ sample.payload <+: Magic.bytes ⟨1, 0⟩ ++ sample.payload ++ [0] ∧
          sample.body.depth ≤ Wire.maxDepth) := by
  have h : sample.encode ⟨1, 0⟩ = .ok (Magic.bytes ⟨1, 0⟩ ++ sample.payload) :=
    encode_eq_ok_iff.2 ⟨by decide +kernel, rfl⟩
  exact ⟨h, decode_ok_iff_prefix h _⟩

end Envelope

end DurableFlow
