import DurableFlow.Proofs.RoundTrip.Calendar
import DurableFlow.Proofs.Wire.Element

/-!
# Keys and attachments round-trip

A key is written by the name of its algorithm and its encoding. The name is enough where it is not the name of
a known algorithm that stands for another one, and then a key and an attachment come back as they were if they
fit in a payload.
-/

namespace DurableFlow

namespace KeyAlgorithm

/-- The algorithms that have names of their own. -/
def known : List KeyAlgorithm := [ed25519, ecdsaSecp256r1, ecdsaSecp256k1, rsaSha256]

/-- An algorithm that goes by its name only does not go by the name of a known one. -/
def Genuine (a : KeyAlgorithm) : Prop := ∀ name, a = other name → ∀ k ∈ known, k.name ≠ name

variable {a : KeyAlgorithm} {name : String}

theorem ofName_of_unknown (h : ∀ k ∈ known, k.name ≠ name) : ofName name = other name := by
  have hne : ∀ k ∈ known, name ≠ k.name := fun k hk => (h k hk).symm
  simp only [known, List.forall_mem_cons] at hne
  obtain ⟨h₁, h₂, h₃, h₄, -⟩ := hne
  rw [ofName, if_neg h₁, if_neg h₂, if_neg h₃, if_neg h₄]

theorem ofName_of_known (h : a ∈ known) : ofName a.name = a := by
  simp only [known, List.mem_cons, List.not_mem_nil, or_false] at h
  rcases h with rfl | rfl | rfl | rfl <;> decide +kernel

theorem ofName_name_iff : ofName a.name = a ↔ a.Genuine := by
  cases a with
  | other name =>
    refine ⟨fun hback name' hname k hk hkn => ?_, fun h => ofName_of_unknown (h name rfl)⟩
    obtain rfl := other.inj hname
    rw [show (other name).name = k.name from hkn.symm, ofName_of_known hk] at hback
    subst hback
    exact absurd hk (by simp [known])
  | ed25519 | ecdsaSecp256r1 | ecdsaSecp256k1 | rsaSha256 =>
    exact iff_of_true (ofName_of_known (by decide)) fun name h => nomatch h

end KeyAlgorithm

namespace Key

variable {role : KeyRole} {k : Key role}

/-- The key can be built, and its algorithm is a genuine one. -/
def Proper (k : Key role) : Prop := of k.algorithm k.encoded = .ok k ∧ k.algorithm.Genuine

end Key

namespace Builtin

/-- A key, or an attachment with its signers. -/
inductive Keyed : Builtin → Value → Prop
  | publicKey {k : PublicKey} (hk : k.Proper) : Keyed .publicKey (.atom (.publicKey k))
  | privateKey {k : PrivateKey} (hk : k.Proper) : Keyed .privateKey (.atom (.privateKey k))
  | contractAttachment {id : SecureHash} {contract : String} {signers : List PublicKey}
    (hsigners : ∀ k ∈ signers, k.Proper) :
    Keyed .contractAttachment
      (.seq [.atom (.hash id), .text contract, .seq (signers.map fun k => .atom (.publicKey k))])

def signing : List Builtin := [publicKey, privateKey, secureHash, contractAttachment]

theorem readKey_eq {role : KeyRole} {k : Key role} (hk : k.Proper) (what : String) :
    readKey what (keyElement k) = .ok k := by
  have hname := KeyAlgorithm.ofName_name_iff.2 hk.2
  have hpair := Element.asPair_list (.text k.algorithm.name) (.binary k.encoded) what
  rw [readKey, keyElement, hpair, bind_ok]
  change InvalidValue.lift (Key.of (KeyAlgorithm.ofName k.algorithm.name) k.encoded) = _
  rw [hname, hk.1]
  rfl

theorem keeps_publicKey {k : PublicKey} (hk : k.Proper) :
    publicKeyCodec.Keeps (.atom (.publicKey k)) (keyElement k) := by
  refine keeps_atom rfl ?_
  rw [readKey_eq hk, bind_ok]
  rfl

theorem keeps_privateKey {k : PrivateKey} (hk : k.Proper) :
    privateKeyCodec.Keeps (.atom (.privateKey k)) (keyElement k) := by
  refine keeps_atom rfl ?_
  rw [readKey_eq hk, bind_ok]
  rfl

theorem keeps_hash (h : SecureHash) : secureHashCodec.Keeps (.atom (.hash h)) (.binary h.bytes) := by
  have hsize : SecureHash.ofBytes? h.bytes = some h := dif_pos h.size
  have hbinary : (Element.binary h.bytes).asBinary "hash" = .ok h.bytes := rfl
  refine keeps_atom rfl ?_
  rw [hbinary, bind_ok, hsize]
  rfl

end Builtin

theorem depth_attachment {d d' contract : String} {id : Bytes} {es : List Element}
    (hes : ∀ e ∈ es, e.depth ≤ 3) :
    Element.depth (.described d (.list [.described d' (.binary id), .text contract, .list es])) ≤ 6 := by
  have hall := Element.depthAll_le_iff.2 hes
  simp only [Element.depth, Element.depthAll]
  omega

theorem Envelope.lt_payloadSize_key {role : KeyRole} (b : Builtin) (k : Key role) :
    k.algorithm.name.utf8ByteSize <
      payloadSize ⟨[b.schemaEntry].foldl Schema.add .empty, .described b.name (Builtin.keyElement k)⟩ := by
  simp only [payloadSize, Builtin.keyElement, Wire.elementSize, Wire.elementsSize]
  omega

namespace Setting

open Builtin

variable {c : Setting} (hc : ∀ b ∈ signing, c.Serves b) {b : Builtin} {v : Value}

include hc

theorem keeps_publicKey {k : PublicKey} (hk : k.Proper) :
    c.Keeps (.builtin .publicKey) (.atom (.publicKey k))
      (.described Builtin.publicKey.name (keyElement k)) [Builtin.publicKey.schemaEntry] := by
  have hleaf : (Value.atom (.publicKey k)).IsLeaf := trivial
  exact keeps_of_codec (hc .publicKey (by decide)) hleaf (Builtin.keeps_publicKey hk)

theorem keeps_privateKey {k : PrivateKey} (hk : k.Proper) :
    c.Keeps (.builtin .privateKey) (.atom (.privateKey k))
      (.described Builtin.privateKey.name (keyElement k)) [Builtin.privateKey.schemaEntry] := by
  have hleaf : (Value.atom (.privateKey k)).IsLeaf := trivial
  exact keeps_of_codec (hc .privateKey (by decide)) hleaf (Builtin.keeps_privateKey hk)

theorem keeps_attachment {id : SecureHash} {contract : String} {signers : List PublicKey}
    (hsigners : ∀ k ∈ signers, k.Proper) :
    ∃ e ns, c.Keeps (.builtin .contractAttachment)
      (.seq [.atom (.hash id), .text contract, .seq (signers.map fun k => .atom (.publicKey k))]) e ns ∧
      e.depth ≤ 6 := by
  have hserves := hc .contractAttachment (by decide)
  have hleaf : (Value.atom (.hash id)).IsLeaf := trivial
  have hid := keeps_of_codec (hc .secureHash (by decide)) hleaf (Builtin.keeps_hash id)
  have hlist := keeps_list fun k hk => keeps_publicKey hc (hsigners k hk)
  have hparts := PartsWritten.value hid.writes (.text "contract" contract (.value hlist.writes .nil))
  refine ⟨_, _, ⟨writesAs_of_parts hserves rfl hparts, fun s => ?_⟩, ?_⟩
  · rw [readElement_of_parts hserves rfl rfl]
    simp only [List.map_cons, List.map_nil]
    rw [readParts_value (hid.reads s), readParts_text, readParts_value (hlist.reads s)]
    rfl
  · refine depth_attachment fun e he => ?_
    obtain ⟨k, -, rfl⟩ := List.mem_map.1 he
    exact Nat.le_refl 3

theorem exists_keeps_keyed (hv : b.Keyed v) :
    ∃ e ns, c.Keeps (.builtin b) v e ns ∧ e.depth ≤ 6 := by
  cases hv with
  | publicKey hk => exact ⟨_, _, keeps_publicKey hc hk, Nat.le_of_ble_eq_true rfl⟩
  | privateKey hk => exact ⟨_, _, keeps_privateKey hc hk, Nat.le_of_ble_eq_true rfl⟩
  | contractAttachment hsigners => exact keeps_attachment hc hsigners

end Setting

namespace Call

variable {p : Plugins} {d₀ d₁ : Draft} {st : Store} {f : Nat} {b : Builtin} {v : Value}

/-- After standard registration a key or an attachment is written and read again as it was, unless its payload
is too long. -/
theorem deserialize_of_serialize_keyed (hready : p.LeavesLibrary d₀ d₁ Builtin.signing)
    (hf : (st.factory f).registry = d₁.registry) (hv : b.Keyed v) (m : Magic) :
    ∃ env : Envelope, (st.setting f).write (.builtin b) v = .ok (env.body, env.schema) ∧
      (env.payloadSize ≤ Envelope.maxPayload →
        ∃ bs, runOn (serializeWith f m (.builtin b) v) st = (.ok bs, st) ∧
          runOn (deserializeWith f m (.builtin b) bs) st = (.ok v, st)) ∧
      (Envelope.maxPayload < env.payloadSize →
        runOn (serializeWith f m (.builtin b) v) st = (.error (.error (.malformed .tooLong)), st)) := by
  have hc : ∀ b ∈ Builtin.signing, (st.setting f).Serves b := fun b hb => hready.serves hf hb
  obtain ⟨e, ns, hkeeps, hdepth⟩ := Setting.exists_keeps_keyed hc hv
  have hdepth' : e.depth ≤ Wire.maxDepth := Nat.le_trans hdepth (by decide)
  simp only [runOn_serializeWith, runOn_deserializeWith, Prod.mk.injEq, and_true]
  exact ⟨⟨ns.foldl Schema.add .empty, e⟩, hkeeps.writes _ _,
    fun hsize => hkeeps.exists_bytes hdepth' hsize m,
    fun hsize => Setting.serialize_of_tooLong hkeeps.writes hsize m⟩

theorem leavesLibrary_bureau (bs : List Builtin) :
    Plugins.empty.LeavesLibrary ⟨.empty, .new 1 false, []⟩
      ⟨(bureau.factory 0).registry, .new 1 false, []⟩ bs :=
  Plugins.leavesLibrary_of_pristine rfl (List.forall_mem_nil _) _ bs

/-- An attachment that two parties have signed, one of them by an algorithm that only its name is known of. -/
theorem deserialize_of_serialize_signed :
    let signers : List PublicKey := [⟨.ed25519, [1]⟩, ⟨.other "X448", [2]⟩]
    let attachment : Value := .seq [.atom (.hash ⟨.replicate 32 0, rfl⟩), .text "app.Cash",
      .seq (signers.map fun k => .atom (.publicKey k))]
    Builtin.contractAttachment.Keyed attachment ∧
      ∃ bs, runOn (serializeWith 0 ⟨1, 0⟩ (.builtin .contractAttachment) attachment) bureau =
          (.ok bs, bureau) ∧
        runOn (deserializeWith 0 ⟨1, 0⟩ (.builtin .contractAttachment) bs) bureau =
          (.ok attachment, bureau) := by
  intro signers attachment
  have hed25519 : Key.Proper (⟨.ed25519, [1]⟩ : PublicKey) := ⟨rfl, nofun⟩
  have hx448 : Key.Proper (⟨.other "X448", [2]⟩ : PublicKey) := by
    refine ⟨rfl, fun name hname => ?_⟩
    obtain rfl := KeyAlgorithm.other.inj hname
    decide +kernel
  have hkeyed : Builtin.contractAttachment.Keyed attachment :=
    .contractAttachment (List.forall_mem_cons.2 ⟨hed25519, List.forall_mem_singleton.2 hx448⟩)
  refine ⟨hkeyed, ?_⟩
  obtain ⟨env, -, hback, hrefused⟩ :=
    deserialize_of_serialize_keyed (leavesLibrary_bureau _) rfl hkeyed ⟨1, 0⟩
  refine hback (Nat.le_of_not_lt fun hlong => ?_)
  have hwritten : (runOn (serializeWith 0 ⟨1, 0⟩ (.builtin .contractAttachment) attachment)
      bureau).1.isOk = true := by decide +kernel
  rw [hrefused hlong] at hwritten
  cases hwritten

def lengthyKey : PrivateKey := ⟨.other (.ofList (.replicate Envelope.maxPayload 'a')), [1]⟩

/-- A key with an algorithm that goes by its name only, which is the name of a known one. -/
def posingKey : PublicKey := ⟨.other "RSA_SHA256", [1]⟩

theorem proper_lengthyKey : lengthyKey.Proper := by
  refine ⟨rfl, fun name hname k hk heq => ?_⟩
  obtain rfl := KeyAlgorithm.other.inj hname
  have hshort : ∀ k ∈ KeyAlgorithm.known, k.name.utf8ByteSize < Envelope.maxPayload := by decide +kernel
  have hlength := hshort k hk
  rw [heq, utf8ByteSize_replicate] at hlength
  exact Nat.lt_irrefl _ hlength

/-- The name of an algorithm may leave no room in a payload for the rest of a key. And where it is the name of a
known algorithm, a key with this one comes back. -/
theorem not_kept_keys :
    Plugins.empty.LeavesLibrary ⟨.empty, .new 1 false, []⟩
      ⟨(bureau.factory 0).registry, .new 1 false, []⟩ Builtin.signing ∧
    Key.of lengthyKey.algorithm lengthyKey.encoded = .ok lengthyKey ∧
    runOn (serializeWith 0 ⟨1, 0⟩ (.builtin .privateKey) (.atom (.privateKey lengthyKey))) bureau =
      (.error (.error (.malformed .tooLong)), bureau) ∧
    Key.of posingKey.algorithm posingKey.encoded = .ok posingKey ∧
    ∃ bs, runOn (serializeWith 0 ⟨1, 0⟩ (.builtin .publicKey) (.atom (.publicKey posingKey))) bureau =
        (.ok bs, bureau) ∧
      runOn (deserializeWith 0 ⟨1, 0⟩ (.builtin .publicKey) bs) bureau =
        (.ok (.atom (.publicKey ⟨.rsaSha256, [1]⟩)), bureau) := by
  have hready := leavesLibrary_bureau Builtin.signing
  have hserves : ∀ b ∈ Builtin.signing, (bureau.setting 0).Serves b := fun b hb => hready.serves rfl hb
  refine ⟨hready, rfl, ?_, rfl, ?_⟩
  · have hname : lengthyKey.algorithm.name.utf8ByteSize = Envelope.maxPayload := utf8ByteSize_replicate _
    have hsize := Envelope.lt_payloadSize_key Builtin.privateKey lengthyKey
    rw [hname] at hsize
    rw [runOn_serializeWith,
      Setting.serialize_of_tooLong (Setting.keeps_privateKey hserves proper_lengthyKey).writes hsize]
  · -- Both keys are written alike.
    have hleaf : (Value.atom (.publicKey posingKey)).IsLeaf := trivial
    have hrsa : Key.Proper (⟨.rsaSha256, [1]⟩ : PublicKey) := ⟨rfl, nofun⟩
    have hkeeps := Setting.keeps_publicKey hserves hrsa
    have hwrites := Setting.writesAs_of_single (b := .publicKey) (hserves _ (by decide)) hleaf rfl rfl
    have hsize : Envelope.payloadSize ⟨[Builtin.publicKey.schemaEntry].foldl Schema.add .empty,
        .described Builtin.publicKey.name (Builtin.keyElement (⟨.rsaSha256, [1]⟩ : PublicKey))⟩ ≤
        Envelope.maxPayload := by decide +kernel
    obtain ⟨bs, hbs, hback⟩ := hkeeps.exists_bytes (Nat.le_of_ble_eq_true rfl) hsize ⟨1, 0⟩
    rw [Setting.serialize_of_writesAs hkeeps.writes] at hbs
    refine ⟨bs, ?_, ?_⟩
    · rw [runOn_serializeWith, Setting.serialize_of_writesAs hwrites]
      exact congrArg (fun x => (x, bureau)) hbs
    · rw [runOn_deserializeWith, hback]

end Call

end DurableFlow
