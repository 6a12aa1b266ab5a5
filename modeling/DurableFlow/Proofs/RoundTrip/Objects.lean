import DurableFlow.Proofs.RoundTrip.Plain
import DurableFlow.Proofs.Serializer.Scope
import DurableFlow.Proofs.Writing.Fields
import Mathlib.Data.List.Pairwise

/-!
# Objects are read back

An object is read back if the values of its fields are and no field that may be absent shares its name with
another one. The names that were written stand in the schema, since no notation of another kind has taken
the place.
-/

namespace DurableFlow

namespace Field

/-- A field that is absent shares its name with none that is there. Otherwise the value could not be rebuilt from
its named fields, which is what an object type is for. -/
def Apart (ps : List (Field × Value)) : Prop :=
  ∀ p ∈ ps, ∀ q ∈ ps, p.1.name = q.1.name → p.1.skips p.2 = true → q.1.skips q.2 = true

end Field

/-- No field that may be absent shares its name with another one, as in a record no two fields do. -/
def ObjectType.Regular (o : ObjectType) : Prop :=
  o.fields.Pairwise fun f f' => f.name = f'.name → f.required = true ∧ f'.required = true

theorem ObjectType.Regular.apart {o : ObjectType} (ho : o.Regular) {ps : List (Field × Value)}
    (hps : ps.map (·.1) = o.fields) : Field.Apart ps := by
  intro p hp q hq hname hskip
  by_cases hpq : p = q
  · rw [← hpq]
    exact hskip
  · have hpairwise : ps.Pairwise fun p q => p.1.name = q.1.name →
        p.1.required = true ∧ q.1.required = true := by
      rw [← List.pairwise_map (f := Prod.fst) (R := fun f f' : Field => f.name = f'.name →
        f.required = true ∧ f'.required = true), hps]
      exact ho
    have : Std.Symm fun p q : Field × Value => p.1.name = q.1.name →
        p.1.required = true ∧ q.1.required = true :=
      ⟨fun p q h hname => (h hname.symm).symm⟩
    have hrequired := (hpairwise.forall hp hq hpq hname).1
    rw [(Field.of_skips hskip).1] at hrequired
    cases hrequired

namespace Setting

variable {c : Setting} {w : Value → Writer}

/-- How the value of a field is read where there is one. -/
def readFound (f : Field) (r : Reader) : Except Abort Value :=
  if f.required then r (.value f.type) else do return .some (← r (.value f.type))

theorem yields_writeField {f : Field} {v : Value} {x : Writer} (label : String)
    (h : c.RoundTrips (x f.slot .typed) f.slot v) :
    Writing.Yields c.Clear (writeField label f x) fun s e => readFound f (c.readElement s e) = .ok v := by
  rw [Field.slot] at h
  rw [writeField]
  cases hf : f.required with
  | true =>
    rw [hf, if_pos rfl] at h
    rw [if_pos rfl]
    refine h.mono fun s e he => ?_
    rw [readFound, if_pos hf, he]
  | false =>
    rw [hf, if_neg Bool.false_ne_true] at h
    rw [if_neg Bool.false_ne_true]
    refine h.bind fun e => ?_
    split
    case h_1 e =>
      refine .pure fun s he => ?_
      rw [readElement_some] at he
      rw [readFound, if_neg (by simp [hf]), he]
    case h_2 => exact .lift_error

/-- A field with the value that is written and the value that is read for it. -/
structure Carried where
  field : Field
  given : Value
  got : Value

namespace Carried

def skips (p : Carried) : Bool := p.field.skips p.given

/-- A field that is skipped shares its name with none that is written. -/
def Apart (ps : List Carried) : Prop := Field.Apart (ps.map fun p => (p.field, p.given))

theorem Apart.skips {ps : List Carried} (h : Apart ps) {p q : Carried} (hp : p ∈ ps) (hq : q ∈ ps)
    (hname : p.field.name = q.field.name) (hskip : p.skips = true) : q.skips = true :=
  h _ (List.mem_map_of_mem hp) _ (List.mem_map_of_mem hq) hname hskip

end Carried

/-- What was written for the fields, by their names: one element for each field that is not skipped. -/
structure Written (c : Setting) (s : Schema) (ps : List Carried) (written : List (String × Element)) :
    Prop where
  read : ∀ p ∈ ps, p.skips = false → ∃ e, (p.field.name, e) ∈ written ∧
    readFound p.field (c.readElement s e) = .ok p.got
  origin : ∀ q ∈ written, ∃ p ∈ ps, p.skips = false ∧ p.field.name = q.1

theorem yields_writeFields {ps : List Carried} (label : String) (names : List String)
    (values : List Element)
    (h : ∀ p ∈ ps, c.RoundTrips (c.writeOver w p.given p.field.slot .typed) p.field.slot p.got) :
    Writing.Yields c.Clear
      (writeFields label names values (ps.map (·.field)) (ps.map (·.given))
        (ps.map fun p => c.writeOver w p.given))
      fun s out => ∃ written, out = (names ++ written.map (·.1), values ++ written.map (·.2)) ∧
        (names.Nodup → out.1.Nodup) ∧ c.Written s ps written := by
  induction ps generalizing names values with
  | nil =>
    refine .pure fun s => ⟨[], ?_, id, ⟨by simp, by simp⟩⟩
    rw [List.map_nil, List.map_nil, List.append_nil, List.append_nil]
  | cons p ps ih =>
    have hps := fun names values => ih names values fun q hq => h q (List.mem_cons_of_mem _ hq)
    rw [List.map_cons, List.map_cons, List.map_cons]
    cases hskip : p.skips with
    | true =>
      rw [writeFields_cons_of_skips hskip]
      refine (hps names values).mono fun s out ⟨written, hout, hnodup, hw⟩ => ?_
      refine ⟨written, hout, hnodup, List.forall_mem_cons.2 ⟨?_, hw.read⟩, fun q hq => ?_⟩
      · rw [hskip]
        exact fun h => nomatch h
      · obtain ⟨p', hp', hq'⟩ := hw.origin q hq
        exact ⟨p', List.mem_cons_of_mem _ hp', hq'⟩
    | false =>
      rw [writeFields_cons hskip]
      split_ifs with hmem
      · exact .lift_error
      · refine (yields_writeField label (h p List.mem_cons_self)).bind fun e => ?_
        refine (hps _ _).mono fun s out ⟨written, hout, hnodup, hw⟩ he => ?_
        refine ⟨(p.field.name, e) :: written, ?_, fun hn => hnodup ?_,
          List.forall_mem_cons.2 ⟨fun _ => ⟨e, List.mem_cons_self, he⟩, fun p' hp' hs' => ?_⟩,
          List.forall_mem_cons.2 ⟨⟨p, List.mem_cons_self, hskip, rfl⟩, fun q hq => ?_⟩⟩
        · rw [hout]
          simp only [List.map_cons, List.append_assoc, List.singleton_append]
        · rw [List.contains_iff_mem] at hmem
          refine List.nodup_append.2 ⟨hn, List.pairwise_singleton _ _, ?_⟩
          rintro name hname _ hlast rfl
          exact hmem (List.mem_singleton.1 hlast ▸ hname)
        · obtain ⟨e', he', hread⟩ := hw.read p' hp' hs'
          exact ⟨e', List.mem_cons_of_mem _ he', hread⟩
        · obtain ⟨p', hp', hq'⟩ := hw.origin q hq
          exact ⟨p', List.mem_cons_of_mem _ hp', hq'⟩

theorem readFields_eq {ps : List Carried} (label : String) (names : List String)
    (values : List Reader) (h : ∀ p ∈ ps, readField label names values p.field = .ok p.got) :
    readFields label names values (ps.map (·.field)) = .ok (ps.map (·.got)) := by
  induction ps with
  | nil => rfl
  | cons p ps ih =>
    rw [List.map_cons, readFields_cons, h p List.mem_cons_self,
      ih fun q hq => h q (List.mem_cons_of_mem _ hq)]
    rfl

theorem Written.readFields {s : Schema} {ps : List Carried} {written : List (String × Element)}
    (h : c.Written s ps written) (label : String) (hn : (written.map (·.1)).Nodup)
    (hapart : Carried.Apart ps) (hgot : ∀ p ∈ ps, p.skips = true → p.got = .none) :
    Setting.readFields label (written.map (·.1)) ((written.map (·.2)).map (c.readElement s))
      (ps.map (·.field)) = .ok (ps.map (·.got)) := by
  refine readFields_eq label _ _ fun p hp => ?_
  have hzip : (written.map (·.1)).zip ((written.map (·.2)).map (c.readElement s)) =
      written.map fun q => (q.1, c.readElement s q.2) := by
    rw [List.map_map, List.zip_map']
    rfl
  rw [readField, hzip, List.find?_map]
  cases hskip : p.skips with
  | true =>
    have hnone : written.find? ((fun q : String × Reader => decide (q.1 = p.field.name)) ∘
        fun q => (q.1, c.readElement s q.2)) = none := by
      rw [List.find?_eq_none]
      intro q hq hname
      obtain ⟨p', hp', hskip', hq'⟩ := h.origin q hq
      have hsame : p.field.name = p'.field.name := hq'.symm ▸ (of_decide_eq_true hname).symm
      rw [hapart.skips hp hp' hsame hskip] at hskip'
      cases hskip'
    rw [hnone, Option.map_none, hgot p hp hskip, (Field.of_skips hskip).1]
    rfl
  | false =>
    obtain ⟨e, he, hread⟩ := h.read p hp hskip
    have hfound : written.find? ((fun q : String × Reader => decide (q.1 = p.field.name)) ∘
        fun q => (q.1, c.readElement s q.2)) = some (p.field.name, e) :=
      Bindings.find?_of_mem hn he
    rw [hfound]
    exact hread

theorem yields_noteFields {name : String} (names : List String)
    (h : c.registry.byDescriptor.get? name = none) :
    Writing.Yields c.Clear (noteFields name names) fun s _ => s.fields? name = some names := by
  have hclear : ∀ s, c.Clear s → ∀ own id, s.get? name ≠ some (.restricted own id) := by
    intro s hs own id hget
    have hbound := hs name own id hget
    rw [h] at hbound
    cases hbound
  refine (Writing.Yields.noteFields names (fun s hs => hs.add_composite _ _) hclear).mono ?_
  intro s u hget
  rw [Schema.fields?, hget]

theorem readElement_fields {o : ObjectType} {s : Schema} {names : List String} {es : List Element}
    (hfields : s.fields? o.name = some names) :
    c.readElement s (.list es) (.fields o) =
      if es.length ≠ names.length then
        Abort.mismatch s!"{names.length} fields" s!"{es.length} values"
      else do return .seq (← readFields o.name names (es.map (c.readElement s)) o.fields) := by
  rw [readElement_list]
  simp only [readNode, hfields]
  rfl

theorem readObject_list {o : ObjectType} {s : Schema} {names : List String} {es : List Element}
    (hcheck : c.policy.check o.name = .ok ()) (hfields : s.fields? o.name = some names)
    (hlength : es.length = names.length) :
    c.readObject o (c.readElement s (.list es)) = do
      return .seq (← readFields o.name names (es.map (c.readElement s)) o.fields) := by
  rw [readObject, hcheck, readElement_fields hfields, if_neg (not_not_intro hlength)]
  rfl

/-- An object of a loaded type that no serializer writes is described by its name, and its description is
read back as an object. -/
theorem yields_writeDescribed {o : ObjectType} {ps : List Carried}
    (ho : c.scope.objectType? o.type = some o) (hunbound : c.registry.byType.get? o.type = none)
    (hname : c.registry.byDescriptor.get? o.name = none) (hapart : Carried.Apart ps)
    (hps : ps.map (·.field) = o.fields)
    (h : ∀ p ∈ ps, c.RoundTrips (c.writeOver w p.given p.field.slot .typed) p.field.slot p.got)
    (hgot : ∀ p ∈ ps, p.skips = true → p.got = .none) (slot : Slot) :
    Writing.Yields c.Clear
      (c.writeDescribed w (.seq (ps.map (·.given)))
        (ps.map fun p => c.writeOver w p.given) [] o.type slot)
      fun s e => ∃ body, e = .described o.name body ∧
        c.readObject o (c.readElement s body) = .ok (.seq (ps.map (·.got))) := by
  simp only [writeDescribed, hunbound, ho]
  refine Writing.Yields.bind (Q := fun _ _ => c.policy.check o.name = .ok ())
    (.lift fun _ h _ => h) fun _ => ?_
  rw [← hps]
  refine (yields_writeFields o.name [] [] h).bind fun out => ?_
  obtain ⟨names, values⟩ := out
  refine (yields_noteFields names hname).bind fun _ => .pure fun s hfields hout hcheck => ?_
  obtain ⟨written, hout, hnodup, hw⟩ := hout
  obtain ⟨rfl, rfl⟩ := Prod.mk.inj hout
  simp only [List.nil_append] at hfields hnodup ⊢
  refine ⟨_, rfl, ?_⟩
  have hread := hw.readFields o.name (hnodup List.nodup_nil) hapart hgot
  rw [readObject_list hcheck hfields (by rw [List.length_map, List.length_map]), ← hps, hread]
  rfl

end Setting

end DurableFlow
