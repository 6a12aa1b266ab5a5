import DurableFlow.Proofs.Environment.Routing
import DurableFlow.Proofs.Wire.Envelope

/-!
# Frozen snapshots are thawed

Where no serializer is contributed and no two object types are in each other's way, what has been frozen is
thawed as the same snapshot, and the thawed snapshot is frozen to the same bytes.
-/

namespace DurableFlow

namespace Magic

theorem ofPrefix?_append (m : Magic) (bs : Bytes) : ofPrefix? (m.bytes ++ bs) = some m := by
  have hmark : mark.isPrefixOf (m.bytes ++ bs) = true := by
    rw [List.isPrefixOf_iff_prefix, bytes, List.append_assoc]
    exact List.prefix_append _ _
  change (if mark.isPrefixOf (m.bytes ++ bs) = true then some m else none) = some m
  rw [if_pos hmark]

end Magic

namespace Store

/-- The factory of an environment for checkpoints is there. -/
structure Ready (st : Store) (e : Nat) (c : Context) (k f : Nat) : Prop
    extends st.KeepsCheckpoints e c where
  scheme : st.writer? e c.magic = some k
  kind : (st.scheme k).kind = .checkpoint
  provides : st.Provides k c.key f

variable {st : Store} {e k f : Nat} {c : Context}

theorem Ready.remembering {m : Magic} {i : Nat} (hst : st.Ready e c k f) (hi : st.reader? e m = some i) :
    (st.remembering e m i).Ready e c k f := by
  refine ⟨hst.toKeepsCheckpoints.remembering hi, ?_, hst.kind, ?_⟩
  · rw [writer?, schemes_remembering]
    exact hst.scheme
  · have hprovides := hst.provides
    exact { hprovides with admitted := congrArg (fun s => setEnvironment s e _) hprovides.admitted }

theorem Ready.scope_setting (hst : st.Ready e c k f) : (st.setting f).scope = st.scope c.scope := by
  change st.scope (st.factory f).scope = _
  rw [hst.provides.factory]
  rfl

theorem Ready.plain_setting (hst : st.Ready e c k f) : (st.setting f).Plain where
  registry := by
    change (st.factory f).registry = _
    rw [hst.provides.factory]
  distinct := by
    rw [hst.scope_setting]
    exact hst.distinct

theorem Ready.genuine_setting (hst : st.Ready e c k f) : (st.setting f).scope.Genuine := by
  rw [hst.scope_setting]
  exact hst.genuine

theorem Ready.reader (hst : st.Ready e c k f) :
    (st.reader? e c.magic).bind ((st.environment e).schemes[·]?) = some k := by
  have hmagic : c.magic = SchemeKind.checkpoint.magic := by
    rw [← magic_of_writer? hst.scheme, hst.kind]
  have hreader : st.reader? e c.magic =
      (st.environment e).schemes.findIdx? fun k => (st.scheme k).kind.magic = c.magic := by
    simp only [reader?, Call.firstAccepting, hmagic, SchemeKind.accepts_checkpoint]
  rw [hreader, ← List.find?_eq_bind_findIdx?_getElem?]
  exact hst.scheme

end Store

namespace Call

variable {st st₁ : Store} {e k f : Nat} {c : Context} {s : Snapshot} {b : Bytes}

theorem runOn_factoryFor_of_ready (hst : st.Ready e c k f) :
    runOn (factoryFor k c) st = (.ok f, st) := by
  refine runOn_factoryFor_again hst.provides ?_
  rw [hst.useCase, SchemeKind.refusal?_checkpoint, hst.kind]

theorem runOn_freeze_of_ready (hst : st.Ready e c k f) (s : Snapshot) :
    runOn (freeze e s) st = ((st.setting f).serialize c.magic Snapshot.type s.toValue, st) := by
  rw [freeze, checkpointSerialize, runOn_bind_ok (runOn_checkpointContextOf hst.context), runOn_serialize,
    hst.scheme]
  simp only
  rw [serializeBy, runOn_bind_ok (runOn_factoryFor_of_ready hst), runOn_get_bind, runOn_serializeWith,
    Store.magic_of_writer? hst.scheme]

/-- Thawing reads with the setting of the factory that wrote, and leaves its choice of a scheme behind. -/
theorem runOn_thaw_of_ready (hst : st.Ready e c k f) {bs : Bytes} (hbs : Magic.ofPrefix? bs = some c.magic)
    {s : Snapshot} (h : (st.setting f).deserialize c.magic Snapshot.type bs = .ok s.toValue) :
    ∃ st', runOn (thaw e bs) st = (.ok s, st') ∧ st'.Ready e c k f ∧ st'.setting f = st.setting f := by
  obtain ⟨st', hk, hcases⟩ := runOn_schemeFor hst.toKeepsCheckpoints c.magic
  rw [hst.reader] at hk
  have hst' : st'.Ready e c k f ∧ st'.setting f = st.setting f := by
    rcases hcases with rfl | ⟨i, hi, rfl⟩
    · exact ⟨hst, rfl⟩
    · exact ⟨hst.remembering hi, rfl⟩
  obtain ⟨hst', hsetting⟩ := hst'
  have hread : runOn (deserialize e c Snapshot.type bs) st = (.ok s.toValue, st') := by
    rw [deserialize, hbs]
    simp only
    rw [hst.useCase, runOn_bind_ok hk, deserializeBy, runOn_bind_ok (runOn_factoryFor_of_ready hst'),
      runOn_get_bind, runOn_deserializeWith, Store.magic_of_writer? hst'.scheme, hsetting, h]
  refine ⟨st', ?_, hst', hsetting⟩
  rw [thaw, runOn_bind_ok (runOn_checkpointContextOf hst.context), thawWith, runOn_bind_ok hread,
    Snapshot.ofValue?_toValue]
  rfl

/-- Whatever has been frozen and nests no deeper than allowed is thawed as the same snapshot, with locals of
the same types and values, and the thawed snapshot is frozen to the same bytes. -/
theorem thaw_of_freeze (he : st.KeepsCheckpoints e c) (hs : s.Kept st.natives (st.scope c.scope))
    (hfreeze : runOn (freeze e s) st = (.ok b, st₁)) {env : Envelope}
    (henv : env.encode c.magic = .ok b) (hdepth : env.body.depth ≤ Wire.maxDepth) :
    ∃ s' st₂, runOn (thaw e b) st₁ = (.ok s', st₂) ∧
      s'.flowId = s.flowId ∧ s'.flowClass = s.flowClass ∧ s'.resumePoint = s.resumePoint ∧
      s'.locals.map (fun l => (l.1, l.2.content?)) = s.locals.map (fun l => (l.1, l.2.content?)) ∧
      ∃ st₃, runOn (freeze e s') st₂ = (.ok b, st₃) := by
  obtain ⟨k, f, hscheme, hkind, halike, hprovides, he₁, hserialize⟩ := of_runOn_freeze he hfreeze
  have hready : st₁.Ready e c k f :=
    ⟨he₁, (halike.writer?_eq e c.magic).trans hscheme, (halike.kind_eq k).trans hkind, hprovides⟩
  have hplain := hready.plain_setting
  have hgenuine := hready.genuine_setting
  have hkept : s.Kept (st₁.setting f).natives (st₁.setting f).scope := by
    have hnatives : (st₁.setting f).natives = st.natives := halike.natives
    rw [hnatives, hready.scope_setting, halike.scope_eq]
    exact hs
  obtain ⟨env', hwrite, hencode⟩ := Setting.serialize_eq_ok_iff.1 hserialize
  obtain rfl := Envelope.encode_inj henv hencode hdepth
  have hdecode : Envelope.decode c.magic b = .ok env' := by
    have happend := Envelope.decode_append henv []
    rwa [List.append_nil, if_pos hdepth] at happend
  have hread : (st₁.setting f).deserialize c.magic Snapshot.type b =
      .ok (s.reread (st₁.setting f)).toValue := by
    rw [Setting.deserialize_of_decode hdecode]
    exact Snapshot.read_of_write hplain hgenuine hkept hwrite
  have hprefix : Magic.ofPrefix? b = some c.magic := by
    rw [(Envelope.encode_eq_ok_iff.1 henv).2]
    exact c.magic.ofPrefix?_append _
  obtain ⟨st₂, hthaw, hready₂, hsetting⟩ := runOn_thaw_of_ready hready hprefix hread
  refine ⟨_, st₂, hthaw, rfl, rfl, rfl, ?_, st₂, ?_⟩
  · rw [Snapshot.reread, List.map_map]
    refine List.map_congr_left fun l _ => ?_
    exact congrArg (Prod.mk l.1) ((st₁.setting f).content?_reread l.2)
  · rw [runOn_freeze_of_ready hready₂, hsetting, Setting.serialize,
      Snapshot.write_reread hplain hgenuine hkept, ← Setting.serialize, hserialize]

def samplePayment : ObjectType where
  type := .named "app.Payment" "app::Payment"
  name := "app.Payment"
  fields := [⟨"payee", .string, true⟩, ⟨"cents", .long, true⟩, ⟨"memo", .string, false⟩]

def sampleTypes : List ObjectType := Snapshot.objectTypes ++ [samplePayment]

def sampleContext : Context := ⟨SchemeKind.checkpoint.magic, 1, 1, .checkpoint, []⟩

def sampleStore : Store :=
  { Store.empty [.list .double] with
    policies := [.new 1 true]
    scopes := [sampleTypes.foldl Scope.load (.new 1 "sample")]
    plugins := [.new]
    schemes := [⟨.checkpoint, 0, Builtin.serializer .publicKey, .empty⟩]
    environments := [⟨[0], Bindings.empty.set .checkpoint sampleContext, .empty⟩] }

def sampleSnapshot : Snapshot where
  flowId := ⟨List.replicate 16 7, rfl⟩
  flowClass := "app.Pay"
  resumePoint := ⟨"await", 3⟩
  locals := [("amount", Value.erase .long (.int (-5))),
    ("payment", Value.erase samplePayment.type (.seq [.text "bob", .int 7, .none])),
    ("rates", Value.erase (.list .double) (.seq [.double 0x7FF8000000000001]))]

theorem apart_sampleTypes : Scope.Apart sampleTypes where
  names := by decide
  types := by decide
  named := by
    intro o ho
    simp only [sampleTypes, Snapshot.objectTypes, List.cons_append, List.nil_append, List.mem_cons,
      List.not_mem_nil, or_false] at ho
    rcases ho with rfl | rfl | rfl <;> exact ⟨_, _, rfl⟩
  unregistered := by
    have hnone : ∀ o ∈ sampleTypes,
        (Registry.library.find? (·.descriptor = o.name)).isNone = true := by decide +kernel
    intro o ho
    rw [Registry.byDescriptor_standard]
    exact Option.isNone_iff_eq_none.1 (hnone o ho)
  foreign := by
    have hdot : ∀ o ∈ sampleTypes, '.' ∈ o.name.toList := by decide
    rintro o ho t ht he
    have hname := hdot o ho
    rw [he] at hname
    exact Ty.dot_not_mem_name ht hname

theorem keepsCheckpoints_sample : sampleStore.KeepsCheckpoints 0 sampleContext where
  context := rfl
  useCase := rfl
  plain k hk _ := by
    obtain rfl := List.mem_singleton.1 hk
    exact ⟨by decide, rfl, rfl, fun _ _ h => nomatch h⟩
  chosen _ _ h := nomatch h
  distinct := apart_sampleTypes.distinct 1 "sample"
  genuine o ho o' h := apart_sampleTypes.eq_of_objectType? (List.mem_append_left _ ho) h

theorem kept_sample :
    sampleSnapshot.Kept sampleStore.natives (sampleStore.scope sampleContext.scope) where
  ordered := by
    rw [Ordered.Increasing]
    decide +kernel
  held := by
    have hpayment : (sampleStore.scope sampleContext.scope).objectType? samplePayment.type =
        some samplePayment := rfl
    have hregular : samplePayment.Regular := by simp [ObjectType.Regular, samplePayment]
    have hfields : ∀ p ∈ samplePayment.fields.zip [.text "bob", .int 7, .none],
        Value.HasType (sampleStore.scope sampleContext.scope) Value.Single p.1.slot p.2 :=
      List.forall_mem_cons.2 ⟨.string "bob", List.forall_mem_cons.2 ⟨.int (by decide),
        List.forall_mem_cons.2 ⟨.none .string, List.forall_mem_nil _⟩⟩⟩
    refine List.forall_mem_cons.2 ⟨.boxed _ _ (by decide) (.int (by decide)),
      List.forall_mem_cons.2 ⟨.object _ _ hpayment (.object hpayment (hregular.apart rfl) rfl hfields),
        List.forall_mem_cons.2 ⟨.native _ rfl (List.mem_singleton_self _) (.list ?_),
          List.forall_mem_nil _⟩⟩⟩
    exact List.forall_mem_singleton.2 (.double _)

def sampleBytes : Bytes := (runOn (freeze 0 sampleSnapshot) sampleStore).1.toOption.getD []

def sampleStoreAfter : Store := (runOn (freeze 0 sampleSnapshot) sampleStore).2

theorem runOn_freeze_sample :
    runOn (freeze 0 sampleSnapshot) sampleStore = (.ok sampleBytes, sampleStoreAfter) := by
  have hok : (runOn (freeze 0 sampleSnapshot) sampleStore).1.isOk = true := by decide +kernel
  rw [sampleBytes, sampleStoreAfter]
  revert hok
  rcases runOn (freeze 0 sampleSnapshot) sampleStore with ⟨e | b, st⟩ <;> intro hok
  · cases hok
  · rfl

theorem exists_sampleEnvelope : ∃ env : Envelope,
    env.encode sampleContext.magic = .ok sampleBytes ∧ env.body.depth ≤ Wire.maxDepth := by
  obtain ⟨k, f, -, -, -, -, -, hserialize⟩ := of_runOn_freeze keepsCheckpoints_sample runOn_freeze_sample
  obtain ⟨env, -, hencode⟩ := Setting.serialize_eq_ok_iff.1 hserialize
  have hok : (Envelope.decode sampleContext.magic sampleBytes).isOk = true := by decide +kernel
  exact ⟨env, hencode, Envelope.depth_le_of_decode hencode hok⟩

theorem thaw_of_freeze_sample :
    runOn (freeze 0 sampleSnapshot) sampleStore = (.ok sampleBytes, sampleStoreAfter) ∧
      ∃ s' st₂, runOn (thaw 0 sampleBytes) sampleStoreAfter = (.ok s', st₂) ∧
        s'.flowId = sampleSnapshot.flowId ∧ s'.flowClass = sampleSnapshot.flowClass ∧
        s'.resumePoint = sampleSnapshot.resumePoint ∧
        s'.locals.map (fun l => (l.1, l.2.content?)) =
          sampleSnapshot.locals.map (fun l => (l.1, l.2.content?)) ∧
        ∃ st₃, runOn (freeze 0 s') st₂ = (.ok sampleBytes, st₃) := by
  obtain ⟨env, hencode, hdepth⟩ := exists_sampleEnvelope
  exact ⟨runOn_freeze_sample,
    thaw_of_freeze keepsCheckpoints_sample kept_sample runOn_freeze_sample hencode hdepth⟩

end Call

end DurableFlow
