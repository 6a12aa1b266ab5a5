import DurableFlow.Builtin.Standard
import DurableFlow.Codec.Error

/-!
# What reading may fail with

`FailsOnly P x` says that `x` gives a value or fails for a reason in `P`. The readers of the library fail
only because the data is not what was asked for, or makes no value, or names a type that is not known.
-/

namespace DurableFlow

variable {α β : Type} {P Q : Abort → Prop} {x : Except Abort α}

def FailsOnly (P : Abort → Prop) (x : Except Abort α) : Prop := ∀ e, x = .error e → P e

/-- The data is not what its type asks for, or its parts make no value. -/
inductive DataFault : Abort → Prop
  | mismatch (expected found : String) : DataFault (.error (.mismatch expected found))
  | invalid (cause : InvalidValue) : DataFault (.error (.invalidValue cause))

/-- The same, or a name in the data is not known. -/
inductive NameFault : Abort → Prop
  | data {e : Abort} (h : DataFault e) : NameFault e
  | unknown (name : String) : NameFault (.error (.unknownType name))

namespace FailsOnly

theorem ok (a : α) : FailsOnly P (.ok a) := by
  intro e h
  cases h

theorem error {e : Abort} (h : P e) : FailsOnly P (.error e : Except Abort α) := by
  intro e' h'
  cases h'
  exact h

theorem mono (h : FailsOnly P x) (hPQ : ∀ e, P e → Q e) : FailsOnly Q x :=
  fun e he => hPQ e (h e he)

theorem bind {g : α → Except Abort β} (hx : FailsOnly P x) (hg : ∀ a, FailsOnly P (g a)) :
    FailsOnly P (x >>= g) := by
  intro e h
  cases hc : x with
  | error e' =>
    rw [hc] at h
    cases h
    exact hx e hc
  | ok a =>
    rw [hc] at h
    exact hg a e h

theorem mapM {xs : List β} {g : β → Except Abort α} (h : ∀ b ∈ xs, FailsOnly P (g b)) :
    FailsOnly P (xs.mapM g) := by
  induction xs with
  | nil => exact ok []
  | cons b xs ih =>
    rw [List.mapM_cons]
    refine bind (h b List.mem_cons_self) fun a => ?_
    exact bind (ih fun b' hb' => h b' (List.mem_cons_of_mem b hb')) fun as => ok (a :: as)

theorem ite {c : Prop} [Decidable c] {y : Except Abort α} (hx : FailsOnly P x)
    (hy : FailsOnly P y) : FailsOnly P (if c then x else y) := by
  by_cases h : c
  · rwa [if_pos h]
  · rwa [if_neg h]

theorem guard {s : Serializer} (operation : String) (hx : FailsOnly P x)
    (hhost : P .panic → ∀ id reason, P (.error (.customSerializer id reason))) :
    FailsOnly P (s.guard operation x) := by
  rw [Serializer.guard.eq_def]
  split
  · have hpanic : P .panic := hx _ rfl
    exact ite (error (hhost hpanic _ _)) (error hpanic)
  · exact hx

theorem report {s : Serializer} {y : Except HostFault α} (hpanic : P .panic)
    (hhost : ∀ id reason, P (.error (.customSerializer id reason))) : FailsOnly P (s.report y) := by
  rw [Serializer.report.eq_def]
  split
  · exact ok _
  · exact error (hhost _ _)
  · exact error hpanic

end FailsOnly

section Data

theorem mismatch_failsOnly (expected found : String) :
    FailsOnly DataFault (Abort.mismatch expected found : Except Abort α) :=
  .error (.mismatch expected found)

theorem wrongValue_failsOnly (label : String) :
    FailsOnly DataFault (wrongValue label : Except Abort α) :=
  mismatch_failsOnly _ _

theorem lift_failsOnly (r : Except InvalidValue α) : FailsOnly DataFault (InvalidValue.lift r) := by
  cases r with
  | ok a => exact .ok a
  | error e => exact .error (.invalid e)

theorem orInvalid_failsOnly (what found : String) (o : Option α) :
    FailsOnly DataFault (orInvalid what found o) := by
  cases o with
  | some a => exact .ok a
  | none => exact mismatch_failsOnly _ _

namespace Element

variable (e : Element) (expected : String)

theorem asList_failsOnly : FailsOnly DataFault (e.asList expected) := by
  cases e <;> first | exact .ok _ | exact mismatch_failsOnly _ _

theorem asLong_failsOnly : FailsOnly DataFault (e.asLong expected) := by
  cases e <;> first | exact .ok _ | exact mismatch_failsOnly _ _

theorem asText_failsOnly : FailsOnly DataFault (e.asText expected) := by
  cases e <;> first | exact .ok _ | exact mismatch_failsOnly _ _

theorem asBinary_failsOnly : FailsOnly DataFault (e.asBinary expected) := by
  cases e <;> first | exact .ok _ | exact mismatch_failsOnly _ _

theorem asTuple_failsOnly (n : Nat) : FailsOnly DataFault (e.asTuple expected n) := by
  rw [asTuple]
  cases h : e.asList expected with
  | error a => exact .error (asList_failsOnly e expected a h)
  | ok items => exact .ite (.ok items) (mismatch_failsOnly _ _)

theorem asPair_failsOnly : FailsOnly DataFault (e.asPair expected) := by
  refine .bind (e.asTuple_failsOnly expected 2) fun items => ?_
  split
  · exact .ok _
  · exact mismatch_failsOnly _ _

theorem asTriple_failsOnly : FailsOnly DataFault (e.asTriple expected) := by
  refine .bind (e.asTuple_failsOnly expected 3) fun items => ?_
  split
  · exact .ok _
  · exact mismatch_failsOnly _ _

theorem asSmall_failsOnly (kind : IntKind) (what : String) :
    FailsOnly DataFault (e.asSmall expected kind what) :=
  .bind (e.asLong_failsOnly expected) fun _ => .ite (.ok _) (mismatch_failsOnly _ _)

end Element

theorem inRange_failsOnly (kind : IntKind) (n : Int) : FailsOnly DataFault (inRange kind n) :=
  .ite (.ok _) (mismatch_failsOnly _ _)

theorem readSimple_failsOnly (t : Ty) (e : Element) : FailsOnly DataFault (readSimple t e) := by
  rw [readSimple.eq_def]
  split
  · refine .ite (.bind (e.asLong_failsOnly _) fun _ => inRange_failsOnly _ _) ?_
    split
    · exact inRange_failsOnly _ _
    · exact mismatch_failsOnly _ _
  · exact .ok _
  · exact .ok _
  · exact .ok _
  · exact .bind (e.asText_failsOnly _) fun _ => .ok _
  · exact mismatch_failsOnly _ _

end Data

/-- The code of a codec itself fails, when it reads, only for reasons in `P`. -/
def Codec.ReadFailsOnly (P : Abort → Prop) : Codec → Prop
  | .single _ read => ∀ known e, FailsOnly P (read known e)
  | .composite _ _ _ check => ∀ vs, FailsOnly P (check vs)
  | .proxy _ _ _ => True

theorem Codec.ReadFailsOnly.mono {k : Codec} (h : k.ReadFailsOnly P) (hPQ : ∀ e, P e → Q e) :
    k.ReadFailsOnly Q := by
  cases k with
  | single write read => exact fun known e => (h known e).mono hPQ
  | composite what backward parts check => exact fun vs => (h vs).mono hPQ
  | proxy standIn toProxy fromProxy => trivial

namespace Builtin

variable (e : Element)

theorem readInstant_failsOnly : FailsOnly DataFault (readInstant e) :=
  .bind (e.asPair_failsOnly _) fun _ => .bind (Element.asLong_failsOnly _ _) fun _ =>
    .bind (Element.asSmall_failsOnly _ _ _ _) fun _ => orInvalid_failsOnly _ _ _

theorem readDuration_failsOnly : FailsOnly DataFault (readDuration e) :=
  .bind (e.asPair_failsOnly _) fun _ => .bind (Element.asLong_failsOnly _ _) fun _ =>
    .bind (Element.asLong_failsOnly _ _) fun _ => orInvalid_failsOnly _ _ _

theorem readDate_failsOnly : FailsOnly DataFault (readDate e) :=
  .bind (e.asTriple_failsOnly _) fun _ => .bind (Element.asSmall_failsOnly _ _ _ _) fun _ =>
    .bind (Element.asSmall_failsOnly _ _ _ _) fun _ =>
      .bind (Element.asSmall_failsOnly _ _ _ _) fun _ => orInvalid_failsOnly _ _ _

theorem readTime_failsOnly : FailsOnly DataFault (readTime e) := by
  refine .bind (e.asTuple_failsOnly _ _) fun parts => ?_
  refine .bind (.mapM fun e _ => e.asSmall_failsOnly _ _ _) fun ns => ?_
  split
  · exact orInvalid_failsOnly _ _ _
  · exact mismatch_failsOnly _ _

theorem readKey_failsOnly {role : KeyRole} (what : String) :
    FailsOnly DataFault (readKey what e : Except Abort (Key role)) :=
  .bind (e.asPair_failsOnly _) fun _ => .bind (Element.asText_failsOnly _ _) fun _ =>
    .bind (Element.asBinary_failsOnly _ _) fun _ => lift_failsOnly _

theorem readDecimal_failsOnly : FailsOnly DataFault (readDecimal e) :=
  .bind (e.asPair_failsOnly _) fun _ => .bind (Element.asLong_failsOnly _ _) fun _ =>
    .ite (.bind (Element.asText_failsOnly _ _) fun _ => lift_failsOnly _) (mismatch_failsOnly _ _)

theorem readEnumSet_failsOnly : FailsOnly DataFault (readEnumSet e) :=
  .bind (e.asPair_failsOnly _) fun _ => .bind (Element.asList_failsOnly _ _) fun _ =>
    .bind (.mapM fun e _ => e.asText_failsOnly _) fun _ =>
      .bind (Element.asText_failsOnly _ _) fun _ => .ok _

theorem checkUtc_failsOnly (vs : List Value) : FailsOnly DataFault (checkUtc vs) := by
  rw [checkUtc.eq_def]
  split
  · exact .ite (.ok _) (mismatch_failsOnly _ _)
  · exact wrongValue_failsOnly _

theorem atomCodec_readFailsOnly {label : String} {write : Atom → Option Element}
    {read : Element → Except Abort Atom} (h : ∀ e, FailsOnly DataFault (read e)) :
    (atomCodec label write read).ReadFailsOnly DataFault :=
  fun _ e => .bind (h e) fun _ => .ok _

theorem composite_readFailsOnly (what : String) (parts : List Part) :
    (composite what parts).ReadFailsOnly DataFault :=
  fun _ => .ok ()

/-- What a built-in type reads is data of the right form or not, unless it is the name of a type. -/
theorem codec_readFailsOnly_data {b : Builtin} (hb : b ≠ .classRef) : b.codec.ReadFailsOnly DataFault := by
  cases b with
  | throwable => exact composite_readFailsOnly _ _
  | privateKey => exact atomCodec_readFailsOnly fun e => .bind (readKey_failsOnly e _) fun _ => .ok _
  | publicKey => exact atomCodec_readFailsOnly fun e => .bind (readKey_failsOnly e _) fun _ => .ok _
  | decimal => exact atomCodec_readFailsOnly fun e => .bind (readDecimal_failsOnly e) fun _ => .ok _
  | currency =>
    exact atomCodec_readFailsOnly fun e => .bind (e.asText_failsOnly _) fun _ =>
      .bind (lift_failsOnly _) fun _ => .ok _
  | instant => exact atomCodec_readFailsOnly fun e => .bind (readInstant_failsOnly e) fun _ => .ok _
  | duration => exact atomCodec_readFailsOnly fun e => .bind (readDuration_failsOnly e) fun _ => .ok _
  | localDate => exact atomCodec_readFailsOnly fun e => .bind (readDate_failsOnly e) fun _ => .ok _
  | localTime => exact atomCodec_readFailsOnly fun e => .bind (readTime_failsOnly e) fun _ => .ok _
  | localDateTime => exact composite_readFailsOnly _ _
  | zonedDateTime => exact composite_readFailsOnly _ _
  | zoneId =>
    exact atomCodec_readFailsOnly fun e => .bind (e.asText_failsOnly _) fun _ =>
      .bind (lift_failsOnly _) fun _ => .ok _
  | offsetTime => exact composite_readFailsOnly _ _
  | offsetDateTime => exact fun vs => checkUtc_failsOnly vs
  | year => exact fun _ e => .bind (e.asSmall_failsOnly _ _ _) fun _ => .ok _
  | yearMonth =>
    exact atomCodec_readFailsOnly fun e => .bind (e.asPair_failsOnly _) fun _ =>
      .bind (Element.asSmall_failsOnly _ _ _ _) fun _ =>
        .bind (Element.asSmall_failsOnly _ _ _ _) fun _ => .bind (lift_failsOnly _) fun _ => .ok _
  | monthDay =>
    exact atomCodec_readFailsOnly fun e => .bind (e.asPair_failsOnly _) fun _ =>
      .bind (Element.asSmall_failsOnly _ _ _ _) fun _ =>
        .bind (Element.asSmall_failsOnly _ _ _ _) fun _ => .bind (lift_failsOnly _) fun _ => .ok _
  | period =>
    exact atomCodec_readFailsOnly fun e => .bind (e.asTriple_failsOnly _) fun _ =>
      .bind (Element.asSmall_failsOnly _ _ _ _) fun _ =>
        .bind (Element.asSmall_failsOnly _ _ _ _) fun _ =>
          .bind (Element.asSmall_failsOnly _ _ _ _) fun _ => .ok _
  | classRef => exact absurd rfl hb
  | certificate =>
    exact atomCodec_readFailsOnly fun e => .bind (e.asBinary_failsOnly _) fun _ =>
      .bind (lift_failsOnly _) fun _ => .ok _
  | certPath => exact fun _ => .ok ()
  | bitSet => exact atomCodec_readFailsOnly fun e => .bind (e.asBinary_failsOnly _) fun _ => .ok _
  | enumSet => exact atomCodec_readFailsOnly fun e => .bind (readEnumSet_failsOnly e) fun _ => .ok _
  | opaqueBytes =>
    exact atomCodec_readFailsOnly fun e => .bind (e.asBinary_failsOnly _) fun _ => .ok _
  | flowId =>
    refine atomCodec_readFailsOnly fun e => .bind (e.asBinary_failsOnly _) fun bs => ?_
    split
    · exact .ok _
    · exact mismatch_failsOnly _ _
  | secureHash =>
    refine atomCodec_readFailsOnly fun e => .bind (e.asBinary_failsOnly _) fun bs => ?_
    split
    · exact .ok _
    · exact mismatch_failsOnly _ _
  | contractAttachment => exact composite_readFailsOnly _ _

theorem codec_readFailsOnly (b : Builtin) : b.codec.ReadFailsOnly NameFault := by
  by_cases hb : b = .classRef
  · subst hb
    refine fun known e => .bind ((e.asText_failsOnly _).mono fun _ => .data) fun name => ?_
    exact .ite (.bind ((lift_failsOnly _).mono fun _ => .data) fun _ => .ok _)
      (.error (.unknown name))
  · exact (codec_readFailsOnly_data hb).mono fun _ => .data

theorem boxed_readFailsOnly (t : Ty) : (boxed t).codec.ReadFailsOnly NameFault :=
  fun _ e => (readSimple_failsOnly t e).mono fun _ => .data

end Builtin

end DurableFlow
