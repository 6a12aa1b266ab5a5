import DurableFlow.Machine.Snapshot
import DurableFlow.Proofs.Environment.Calls
import DurableFlow.Proofs.Reading.Failing
import DurableFlow.Proofs.Wire.Envelope
import DurableFlow.Proofs.Writing.Nesting
import DurableFlow.Proofs.Writing.Yields
import Mathlib.Tactic.ByContra
import Mathlib.Tactic.SplitIfs

/-!
# Values that are written and not read

Writing has no bound on how deep elements nest and reading has one. What a factory writes is refused as
malformed by the same factory exactly if it nests too deep, unless the code of a registered serializer
itself reports malformed data. Each cause of a throwable adds three levels.
-/

namespace DurableFlow

/-- The code of the codec itself may report this fault when it reads. -/
def Codec.Reports (fault : WireFault) (k : Codec) : Prop :=
  ¬ k.ReadFailsOnly (· ≠ .error (.malformed fault))

theorem NameFault.ne_malformed {e : Abort} (h : NameFault e) (fault : WireFault) :
    e ≠ .error (.malformed fault) := by
  rintro rfl
  rcases h with ⟨h⟩
  cases h

theorem ReadFault.ne_malformed {e : Abort} (h : ReadFault e) (fault : WireFault) :
    e ≠ .error (.malformed fault) := by
  rintro rfl
  cases h with
  | name h => exact h.ne_malformed fault rfl

namespace Builtin

theorem not_reports_codec (b : Builtin) (fault : WireFault) : ¬ b.codec.Reports fault :=
  not_not_intro (b.codec_readFailsOnly.mono fun _ h => h.ne_malformed fault)

theorem not_reports_boxed (t : Ty) (fault : WireFault) : ¬ (boxed t).codec.Reports fault :=
  not_not_intro ((boxed_readFailsOnly t).mono fun _ h => h.ne_malformed fault)

end Builtin

namespace Setting

variable {c : Setting} {schema : Schema}

/-- Only the code of a registered serializer reports an element that was read as malformed. -/
theorem exists_reports_of_read {env : Envelope} {t : Ty} {fault : WireFault}
    (h : c.read env t = .error (.error (.malformed fault))) :
    ∃ s, c.registry.Binds s ∧ s.codec.Reports fault := by
  by_contra hn
  have hc : ∀ s, c.registry.Binds s → s.codec.ReadFailsOnly (· ≠ .error (.malformed fault)) :=
    fun s hs => Classical.byContradiction fun hr => hn ⟨s, hs, hr⟩
  have hr : Reader.FailsOnly _ (c.readElement env.schema env.body) :=
    readElement_failsOnly (fun e he => he.ne_malformed fault) hc env.body
  exact hr (.value t) _ h rfl

end Setting

namespace Throwable

def messageElement (l : ThrowableLink) : Element :=
  match l.message with
  | none => .null
  | some m => .list [.text m]

def linkElement (l : ThrowableLink) (cause : Element) : Element :=
  .described Builtin.throwable.name (.list [.text l.typeName, messageElement l, cause])

def causeElement : List ThrowableLink → Element
  | [] => .null
  | l :: ls => .list [linkElement l (causeElement ls)]

def linkNotation : TypeNotation :=
  .restricted Builtin.throwable.name (Builtin.serializer .throwable).id

def element (t : Throwable) : Element := linkElement t.outer (causeElement t.causes)

theorem depth_messageElement (l : ThrowableLink) : (messageElement l).depth ≤ 2 := by
  rw [messageElement]
  cases l.message <;> exact Nat.le_of_ble_eq_true rfl

theorem depth_linkElement (l : ThrowableLink) (cause : Element) :
    (linkElement l cause).depth = 2 + max (messageElement l).depth cause.depth := by
  have := cause.depth_pos
  simp only [linkElement, Element.depth, Element.depthAll]
  omega

theorem depth_causeElement (ls : List ThrowableLink) :
    3 * ls.length + 1 ≤ (causeElement ls).depth ∧ (causeElement ls).depth ≤ 3 * ls.length + 2 := by
  induction ls with
  | nil => decide
  | cons l ls ih =>
    have := depth_messageElement l
    simp only [causeElement, Element.depth, Element.depthAll, depth_linkElement, List.length_cons]
    omega

/-- Each link of a chain adds three levels, and the message of the last one at most one more. -/
theorem depth_element (t : Throwable) :
    3 * t.chain.length ≤ t.element.depth ∧ t.element.depth ≤ 3 * t.chain.length + 1 := by
  have := depth_messageElement t.outer
  have := depth_causeElement t.causes
  simp only [element, depth_linkElement, chain, List.length_cons]
  omega

variable {c : Setting} {w : Value → Writer}

theorem write_message (l : ThrowableLink) :
    c.writeOver w (.ofOption (l.message.map .text)) (.optional .string) .typed =
      pure (messageElement l) := by
  rw [messageElement]
  cases l.message <;> rfl

theorem writeBody_link (l : ThrowableLink) (cause : Value) :
    Setting.writeBody w (Builtin.serializer .throwable) (toValue.link l cause)
      ([.text l.typeName, .ofOption (l.message.map .text), cause].map (c.writeOver w)) = do
        let e ← c.writeOver w cause (.optional (.builtin .throwable)) .typed
        return .list [.text l.typeName, messageElement l, e] := by
  simp only [Setting.writeBody, toValue.link, Builtin.serializer, Builtin.serializerWith,
    Builtin.codec, Builtin.composite, List.map, Setting.writeParts, Setting.writePart,
    write_message, bind_assoc, pure_bind]

variable (hr : c.registry.byType.get? (.builtin .throwable) = some (Builtin.serializer .throwable))

include hr

theorem write_link {l : ThrowableLink} {cause : Value} {e : Element} {s s' : Schema}
    (h : c.writeOver w cause (.optional (.builtin .throwable)) .typed s = .ok (e, s')) :
    c.writeOver w (toValue.link l cause) (.builtin .throwable) .typed s =
      .ok (linkElement l e, s'.add linkNotation) := by
  have hbody := congrFun (writeBody_link (c := c) (w := w) l cause) s
  rw [Writing.bind_apply_ok h, Writing.pure_apply] at hbody
  rw [toValue.link] at hbody ⊢
  rw [Setting.writeOver_seq]
  simp only [Setting.writeNode, Ty.isPlain, Bool.false_eq_true, if_false, reduceCtorEq,
    Setting.writeDescribed, hr]
  refine (Writing.bind_apply_ok ?_).trans rfl
  exact congrArg _ hbody

theorem write_causes (ls : List ThrowableLink) (s : Schema) :
    c.writeOver w (toValue.ofLinks ls) (.optional (.builtin .throwable)) .typed s =
      .ok (causeElement ls, if ls = [] then s else s.add linkNotation) := by
  induction ls with
  | nil => rfl
  | cons l ls ih =>
    have hlink := write_link hr ih (l := l)
    rw [toValue.ofLinks, Value.some, Setting.writeOver_seq, if_neg (List.cons_ne_nil l ls)]
    refine (Writing.bind_apply_ok hlink).trans ?_
    split_ifs
    · rfl
    · rw [Schema.add_add]
      rfl

theorem write_toValue (t : Throwable) :
    c.write (.builtin .throwable) t.toValue = .ok (t.element, ⟨[linkNotation]⟩) := by
  obtain ⟨nesting, hwrite⟩ := c.exists_writer
  have hlink := write_link (l := t.outer) hr
    (write_causes (w := c.writeWithin (nesting + 1)) hr t.causes Schema.empty)
  refine (hwrite _ _).trans (hlink.trans ?_)
  split_ifs <;> rfl

end Throwable

namespace Call

variable {st st' : Store} {f : Nat} {m : Magic} {t : Ty} {v : Value} {bs : Bytes}

theorem exists_envelope_of_serializeWith
    (h : runOn (serializeWith f m t v) st = (.ok bs, st')) :
    st' = st ∧ ∃ env : Envelope,
      (st.setting f).write t v = .ok (env.body, env.schema) ∧ env.encode m = .ok bs := by
  rw [runOn_serializeWith, Prod.mk.injEq, Setting.serialize_eq_ok_iff] at h
  exact ⟨h.2.symm, h.1⟩

/-- What was written is malformed for its reader exactly if it nests too deep; a registered serializer
that reports malformed data of its own accord stands apart. -/
theorem malformed_of_own_bytes (h : runOn (serializeWith f m t v) st = (.ok bs, st')) :
    ∃ env : Envelope, (st.setting f).write t v = .ok (env.body, env.schema) ∧
      env.encode m = .ok bs ∧
      (Wire.maxDepth < env.body.depth →
        runOn (deserializeWith f m t bs) st' =
          (.error (.error (.malformed (.tooDeep Wire.maxDepth))), st')) ∧
      ∀ fault, runOn (deserializeWith f m t bs) st' = (.error (.error (.malformed fault)), st') →
        Wire.maxDepth < env.body.depth ∨
          ∃ s, (st.factory f).registry.Binds s ∧ s.codec.Reports fault := by
  obtain ⟨rfl, env, hw, he⟩ := exists_envelope_of_serializeWith h
  have hd := Envelope.decode_append he []
  rw [List.append_nil] at hd
  refine ⟨env, hw, he, ?_, ?_⟩
  · intro hdeep
    rw [if_neg (by omega)] at hd
    rw [runOn_deserializeWith, Setting.deserialize_of_decode_error hd]
  · intro fault hf
    by_cases hdepth : env.body.depth ≤ Wire.maxDepth
    · rw [if_pos hdepth] at hd
      rw [runOn_deserializeWith, Setting.deserialize_of_decode hd, Prod.mk.injEq] at hf
      exact .inr (Setting.exists_reports_of_read hf.1)
    · exact .inl (by omega)

def throwableStore : Store :=
  { Store.empty [] with
    factories := [⟨1, 1, Registry.empty.bind (Builtin.serializer .throwable)⟩] }

def longThrowable : Throwable := ⟨⟨"E", none⟩, List.replicate 42 ⟨"E", none⟩⟩

def longEnvelope : Envelope := ⟨⟨[Throwable.linkNotation]⟩, longThrowable.element⟩

theorem malformed_of_own_bytes_throwable :
    ∃ bs, runOn (serializeWith 0 ⟨1, 0⟩ (.builtin .throwable) longThrowable.toValue)
        throwableStore = (.ok bs, throwableStore) ∧
      runOn (deserializeWith 0 ⟨1, 0⟩ (.builtin .throwable) bs) throwableStore =
        (.error (.error (.malformed (.tooDeep Wire.maxDepth))), throwableStore) := by
  have hw : (throwableStore.setting 0).write (.builtin .throwable) longThrowable.toValue =
      .ok (longEnvelope.body, longEnvelope.schema) := Throwable.write_toValue rfl longThrowable
  have he : longEnvelope.encode ⟨1, 0⟩ = .ok (Magic.bytes ⟨1, 0⟩ ++ longEnvelope.payload) :=
    Envelope.encode_eq_ok_iff.2 ⟨by decide +kernel, rfl⟩
  have hs : runOn (serializeWith 0 ⟨1, 0⟩ (.builtin .throwable) longThrowable.toValue)
      throwableStore = (.ok (Magic.bytes ⟨1, 0⟩ ++ longEnvelope.payload), throwableStore) := by
    rw [runOn_serializeWith, Setting.serialize_eq_ok_iff.2 ⟨_, hw, he⟩]
  obtain ⟨env, hw', -, hdeep, -⟩ := malformed_of_own_bytes hs
  rw [hw, Except.ok.injEq, Prod.mk.injEq] at hw'
  refine ⟨_, hs, hdeep ?_⟩
  rw [← hw'.1]
  exact Nat.lt_of_lt_of_le (by decide) longThrowable.depth_element.1

end Call

end DurableFlow
