import DurableFlow.Proofs.Environment.Requests

/-!
# Factories that do not meet

What the requests for one policy and one scope come to, and what is then bound in their factory, is the
same whether there are requests for others in between or not, also where these share the policy or the
scope, or fail.
-/

namespace DurableFlow

namespace Call

/-- A request, with what is bound in the factory that it gives. -/
def request (k : Nat) (c : Context) : Call (Nat × Registry) := do
  let f ← factoryFor k c
  return (f, ((← get).factory f).registry)

def requests (k : Nat) : List Context → Store → List (Except Abort (Nat × Registry))
  | [], _ => []
  | c :: cs, st => (runOn (request k c) st).1 :: requests k cs (runOn (request k c) st).2

def afterRequests (k : Nat) (cs : List Context) (st : Store) : Store :=
  cs.foldl (fun st c => (runOn (request k c) st).2) st

variable {st st' : Store} {k f : Nat} {c : Context} {key : Nat × Nat} {r : Registry}

theorem runOn_request (k : Nat) (c : Context) (st : Store) :
    runOn (request k c) st = match runOn (factoryFor k c) st with
      | (.ok f, st') => (.ok (f, (st'.factory f).registry), st')
      | (.error e, st') => (.error e, st') := by
  rw [request, runOn_bind]
  rcases runOn (factoryFor k c) st with ⟨e | f, st'⟩
  · rfl
  · rfl

theorem alike_request (k : Nat) (c : Context) (st : Store) : st.Alike (runOn (request k c) st).2 :=
  alike_factoryFor_bind (fun _ _ => rfl) k c st

theorem runOn_request_of_refusal {e : SerializationError}
    (hu : (st.scheme k).kind.refusal? c.useCase = some e) :
    runOn (request k c) st = (.error (.error e), st) := by
  rw [runOn_request, runOn_factoryFor_of_refusal hu]

/-- A request that is not refused comes to what registration comes to, and leaves that bound. -/
theorem served_request (hk : st.Keyed k) (hu : (st.scheme k).kind.refusal? c.useCase = none) :
    let made := (st.pluginsOf (st.scheme k).plugins).registration (st.scheme k).publicKey
      ((st.bindings? k c.key).getD .empty)
    ∃ f, (runOn (request k c) st).1 = (made.1.map fun _ => (f, made.2)).mapError .error ∧
      st.Served k c.key f made.2 (runOn (request k c) st).2 := by
  intro made
  obtain ⟨f, hout, hserved⟩ := served_factoryFor hk hu
  rcases hrun : runOn (factoryFor k c) st with ⟨x, st'⟩
  rw [hrun] at hout hserved
  obtain rfl : x = (made.1.map fun _ => f).mapError .error := hout
  rw [runOn_request, hrun]
  cases hmade : made.1 with
  | error e => exact ⟨f, rfl, hserved⟩
  | ok u =>
    have hbound : (st'.factory f).registry = made.2 := hserved.bound
    refine ⟨f, ?_, hserved⟩
    change (Except.ok (f, (st'.factory f).registry) : Except Abort (Nat × Registry)) = .ok (f, made.2)
    rw [hbound]

theorem keyed_request (hk : st.Keyed k) (c : Context) :
    (runOn (request k c) st).2.Keyed k ∧
      (∀ key g, (st.scheme k).factories.get? key = some g →
        ((runOn (request k c) st).2.scheme k).factories.get? key = some g) ∧
      ∀ f r, (runOn (request k c) st).1 = .ok (f, r) →
        ((runOn (request k c) st).2.scheme k).factories.get? c.key = some f := by
  cases hu : (st.scheme k).kind.refusal? c.useCase with
  | some e =>
    rw [runOn_request_of_refusal hu]
    exact ⟨hk, fun _ _ hg => hg, fun f r h => nomatch h⟩
  | none =>
    obtain ⟨f, hout, hserved⟩ := served_request hk hu
    refine ⟨hserved.keyed, hserved.keeps, fun g r hg => ?_⟩
    rw [hout, Setting.mapError_eq_ok_iff] at hg
    have hgf : g = f := by
      revert hg
      generalize ((st.pluginsOf (st.scheme k).plugins).registration (st.scheme k).publicKey
        ((st.bindings? k c.key).getD .empty)).1 = x
      intro hg
      cases x with
      | error e => cases hg
      | ok u => exact (Prod.mk.inj (Except.ok.inj hg)).1.symm
    rw [hgf]
    exact hserved.cached

/-- A factory that has been given is kept for its policy and its scope. -/
theorem cached_of_requests (hk : st.Keyed k) (cs : List Context) :
    (afterRequests k cs st).Keyed k ∧
      (∀ key g, (st.scheme k).factories.get? key = some g →
        ((afterRequests k cs st).scheme k).factories.get? key = some g) ∧
      ∀ a ∈ cs.zip (requests k cs st), ∀ f r, a.2 = .ok (f, r) →
        ((afterRequests k cs st).scheme k).factories.get? a.1.key = some f := by
  induction cs generalizing st with
  | nil => exact ⟨hk, fun _ _ hg => hg, fun a ha => nomatch ha⟩
  | cons c cs ih =>
    obtain ⟨hkeyed, hkeeps, hgiven⟩ := keyed_request hk c
    obtain ⟨hlast, hkeeps', hgiven'⟩ := ih hkeyed
    refine ⟨hlast, fun key g hg => hkeeps' key g (hkeeps key g hg), fun a ha f r hr => ?_⟩
    rw [requests, List.zip_cons_cons, List.mem_cons] at ha
    rcases ha with rfl | ha
    · exact hkeeps' _ f (hgiven f r hr)
    · exact hgiven' a ha f r hr

/-- Two stores in which a scheme is the same and the same is bound in its factories for a policy and a
scope. -/
structure AgreeAt (k : Nat) (key : Nat × Nat) (st st' : Store) : Prop where
  keyed : st.Keyed k
  keyed' : st'.Keyed k
  scheme : ∃ factories, st'.scheme k = { st.scheme k with factories := factories }
  plugins : st'.plugins = st.plugins
  bindings : st'.bindings? k key = st.bindings? k key

theorem AgreeAt.refl (hk : st.Keyed k) (key : Nat × Nat) : AgreeAt k key st st :=
  ⟨hk, hk, ⟨_, rfl⟩, rfl, rfl⟩

theorem AgreeAt.skip (h : AgreeAt k key st st') (hc : c.key ≠ key) :
    AgreeAt k key (runOn (Call.request k c) st).2 st' := by
  have halike := alike_request k c st
  obtain ⟨hkeyed, -, -⟩ := keyed_request h.keyed c
  obtain ⟨factories, hscheme⟩ := h.scheme
  obtain ⟨factories', hrequest⟩ := halike.schemes k
  refine ⟨hkeyed, h.keyed', ⟨factories, ?_⟩, h.plugins.trans halike.plugins.symm, ?_⟩
  · rw [hscheme, hrequest]
  · rw [h.bindings]
    cases hu : (st.scheme k).kind.refusal? c.useCase with
    | some e => rw [runOn_request_of_refusal hu]
    | none =>
      obtain ⟨f, -, hserved⟩ := served_request h.keyed hu
      exact (hserved.others key (Ne.symm hc)).symm

/-- Requests for the policy and the scope come to the same in both stores. -/
theorem AgreeAt.request (h : AgreeAt k key st st') (hc : c.key = key) :
    (runOn (Call.request k c) st').1.map (·.2) = (runOn (Call.request k c) st).1.map (·.2) ∧
      AgreeAt k key (runOn (Call.request k c) st).2 (runOn (Call.request k c) st').2 := by
  subst hc
  have halike := alike_request k c st
  have halike' := alike_request k c st'
  obtain ⟨factories, hscheme⟩ := h.scheme
  have hkind : (st'.scheme k).kind = (st.scheme k).kind := by rw [hscheme]
  cases hu : (st.scheme k).kind.refusal? c.useCase with
  | some e =>
    have hu' : (st'.scheme k).kind.refusal? c.useCase = some e := by rw [hkind, hu]
    rw [runOn_request_of_refusal hu, runOn_request_of_refusal hu']
    exact ⟨rfl, h⟩
  | none =>
    have hu' : (st'.scheme k).kind.refusal? c.useCase = none := by rw [hkind, hu]
    obtain ⟨f, hout, hserved⟩ := served_request h.keyed hu
    obtain ⟨f', hout', hserved'⟩ := served_request h.keyed' hu'
    -- registration is the same, on the same bindings
    have hplugins : st'.pluginsOf (st'.scheme k).plugins = st.pluginsOf (st.scheme k).plugins := by
      rw [Store.pluginsOf, Store.pluginsOf, h.plugins, hscheme]
    have hkey : (st'.scheme k).publicKey = (st.scheme k).publicKey := by rw [hscheme]
    rw [hplugins, hkey, h.bindings] at hout' hserved'
    obtain ⟨made, hmade⟩ : ∃ made, made = (st.pluginsOf (st.scheme k).plugins).registration
      (st.scheme k).publicKey ((st.bindings? k c.key).getD .empty) := ⟨_, rfl⟩
    rw [← hmade] at hout hserved hout' hserved'
    obtain ⟨after, hafter⟩ := halike.schemes k
    obtain ⟨after', hafter'⟩ := halike'.schemes k
    refine ⟨?_, hserved.keyed, hserved'.keyed, ⟨after', ?_⟩, ?_, ?_⟩
    · rw [hout, hout']
      cases made.1 with
      | error e => rfl
      | ok u => rfl
    · rw [hafter, hafter', hscheme]
    · rw [halike.plugins, halike'.plugins, h.plugins]
    · rw [hserved.bindings?, hserved'.bindings?]

/-- What the requests for a policy and a scope come to among others, they come to alone. -/
theorem AgreeAt.requests (h : AgreeAt k key st st') (cs : List Context) :
    ((cs.zip (Call.requests k cs st)).filter (·.1.key = key)).map (fun a => a.2.map (·.2)) =
      (Call.requests k (cs.filter (·.key = key)) st').map (·.map (·.2)) := by
  induction cs generalizing st st' with
  | nil => rfl
  | cons c cs ih =>
    rw [Call.requests, List.zip_cons_cons]
    by_cases hc : c.key = key
    · obtain ⟨hout, hagree⟩ := h.request hc
      have hyes : decide (c.key = key) = true := decide_eq_true hc
      rw [List.filter_cons, List.filter_cons, if_pos hyes, if_pos hyes, List.map_cons, Call.requests,
        List.map_cons, ih hagree, hout]
    · have hno : ¬ decide (c.key = key) = true := fun hd => hc (of_decide_eq_true hd)
      rw [List.filter_cons, List.filter_cons, if_neg hno, if_neg hno]
      exact ih (h.skip hc)

theorem keyed_newScheme (kind : SchemeKind) (plugins : Nat) (publicKey : Serializer) (st : Store) :
    (runOn (newScheme kind plugins publicKey) st).2.Keyed st.schemes.length := by
  have hnew : (runOn (newScheme kind plugins publicKey) st).2.scheme st.schemes.length =
      ⟨kind, plugins, publicKey, .empty⟩ := Store.getD_concat_length _ _ _
  refine ⟨?_, fun key f hf => ?_⟩
  · change st.schemes.length < (st.schemes ++ [_]).length
    rw [List.length_append]
    exact Nat.lt_succ_self _
  · rw [hnew] at hf
    cases hf

end Call

/-- What may happen to a scheme: a factory is requested, or others change what is contributed, admitted or
loaded. -/
inductive SchemeEvent where
  | request (c : Context)
  | elsewhere (plugins : List Plugins) (policies : List Policy) (scopes : List Scope)

namespace SchemeEvent

variable {st : Store} {k : Nat}

def leave (k : Nat) (st : Store) : SchemeEvent → Store
  | request c => (runOn (Call.request k c) st).2
  | elsewhere plugins policies scopes => { st with plugins, policies, scopes }

theorem keyed_leave (hk : st.Keyed k) (event : SchemeEvent) : (event.leave k st).Keyed k := by
  cases event with
  | request c => exact (Call.keyed_request hk c).1
  | elsewhere plugins policies scopes => exact ⟨hk.bound, hk.cached⟩

theorem keyed_foldl_leave (hk : st.Keyed k) (events : List SchemeEvent) :
    (events.foldl (leave k) st).Keyed k := by
  induction events generalizing st with
  | nil => exact hk
  | cons event events ih => exact ih (keyed_leave hk event)

end SchemeEvent

namespace Call

/-- Requests are made of a scheme, whatever has happened to it before, and nothing happens in between. Two
that succeed give the same factory exactly if they are for the same policy and the same scope. What those
for one policy and one scope come to, with what is bound in the factory that they give, is what they come to
without the others. -/
theorem requests_isolated (kind : SchemeKind) (plugins : Nat) (publicKey : Serializer) (st₀ : Store)
    (earlier : List SchemeEvent) (cs : List Context) :
    let k := st₀.schemes.length
    let st := earlier.foldl (SchemeEvent.leave k) (runOn (newScheme kind plugins publicKey) st₀).2
    let answers := cs.zip (requests k cs st)
    (∀ a ∈ answers, ∀ b ∈ answers, ∀ f r g r', a.2 = .ok (f, r) → b.2 = .ok (g, r') →
      (f = g ↔ a.1.key = b.1.key)) ∧
    ∀ key, (answers.filter (·.1.key = key)).map (fun a => a.2.map (·.2)) =
      (requests k (cs.filter (·.key = key)) st).map (·.map (·.2)) := by
  intro k st answers
  have hk : st.Keyed k :=
    SchemeEvent.keyed_foldl_leave (keyed_newScheme kind plugins publicKey st₀) earlier
  obtain ⟨hlast, -, hgiven⟩ := cached_of_requests hk cs
  refine ⟨fun a ha b hb f r g r' hf hg => ?_, fun key => (AgreeAt.refl hk key).requests cs⟩
  have hf' := hgiven a ha f r hf
  have hg' := hgiven b hb g r' hg
  constructor
  · rintro rfl
    exact (hlast.cached _ f hf').2.symm.trans (hlast.cached _ f hg').2
  · intro hkey
    rw [hkey, hg'] at hf'
    exact (Option.some.inj hf').symm

def crossedStore : Store :=
  { Store.empty [] with
    plugins := [.new], policies := [.new 1 false, .new 2 false], scopes := [.new 1 "shared"] }

def crossedEvents : List SchemeEvent := [
  .request ⟨⟨1, 0⟩, 2, 1, .p2p, []⟩,
  .elsewhere [Plugins.new.addSerializer "app" Sample.centigrade] [.new 1 false, .new 2 true]
    [.new 1 "shared"]]

def crossing : List Context := [
  ⟨⟨1, 0⟩, 1, 1, .p2p, []⟩, ⟨⟨1, 0⟩, 2, 1, .storage, []⟩, ⟨⟨0, 1⟩, 1, 1, .storage, [("k", "v")]⟩,
  ⟨⟨1, 0⟩, 1, 1, .checkpoint, []⟩]

theorem requests_isolated_crossing :
    let st := crossedEvents.foldl (SchemeEvent.leave 0)
      (runOn (newScheme .server 0 (Builtin.serializer .publicKey)) crossedStore).2
    ∃ f g r r' r'' e,
      requests 0 crossing st = [.ok (f, r), .ok (g, r'), .ok (f, r''), .error e] ∧ f ≠ g ∧
      (requests 0 (crossing.filter (·.key = (1, 1))) st).map (·.map (·.2)) =
        [.ok r, .ok r'', .error e] := by
  intro st
  obtain ⟨answers, hanswers⟩ : ∃ answers, requests 0 crossing st = answers := ⟨_, rfl⟩
  have hok : answers.map Except.isOk = [true, true, true, false] := by
    rw [← hanswers]
    decide +kernel
  obtain ⟨hsame, halone⟩ := requests_isolated .server 0 (Builtin.serializer .publicKey) crossedStore
    crossedEvents crossing
  have hscheme : requests crossedStore.schemes.length crossing
    (crossedEvents.foldl (SchemeEvent.leave crossedStore.schemes.length)
      (runOn (newScheme .server 0 (Builtin.serializer .publicKey)) crossedStore).2) = answers := hanswers
  rw [hscheme] at hsame halone
  have hfiltered : (requests 0 (crossing.filter (·.key = (1, 1))) st).map (·.map (·.2)) = _ :=
    (halone (1, 1)).symm
  rw [hanswers, hfiltered]
  rcases answers with
    _ | ⟨_ | ⟨f, r⟩, _ | ⟨_ | ⟨g, r'⟩, _ | ⟨_ | ⟨f', r''⟩, _ | ⟨e | _, _ | _⟩⟩⟩⟩ <;> cases hok
  obtain rfl : f = f' := (hsame _ (.head _) _ (.tail _ (.tail _ (.head _))) f r f' r'' rfl rfl).2 rfl
  have hne : f ≠ g := by
    rintro rfl
    have hkeys : ((1, 1) : Nat × Nat) = (2, 1) :=
      (hsame _ (.head _) _ (.tail _ (.head _)) f r f r' rfl rfl).1 rfl
    exact absurd hkeys (by decide)
  exact ⟨f, g, r, r', r'', e, rfl, hne, rfl⟩

end Call

end DurableFlow
