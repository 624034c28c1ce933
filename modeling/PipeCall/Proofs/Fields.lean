import Mathlib.Data.List.Perm.Basic
import PipeCall.Message
import PipeCall.Proofs.Json.Syntax
import PipeCall.Proofs.Json.Written

/-!
# Named members

A message is read from the named members of a document, by name: where they stand does not matter,
and a `null` counts for no member at all. `Agree` says of two lists of members that they hold the same
under every name, and such lists are read alike (`Members.ofFields?_congr`). What the named members of
an object are does not depend on the order in which its members are written (`fields?_perm`), on
members with other names (`fields?_cons_of_not_mem`), or on a `null` for a member that is not there
(`fields?_cons_null`). The object with given members and no others is `Document.ofFields`. What is found
under a name can also be said without reading the members first (`Document.Gives`).
-/

namespace PipeCall

open Json (Document Piece Writes pieces text?)

namespace Json.Document

variable {names : List String} {name k : String} {key : List Piece} {d : Document}
  {ms ms' : List (List Piece × Document)} {fields fields' : List (String × Document)}

/-- Related options stay so behind functions that keep the relation. -/
theorem rel_bind {α β γ δ : Type} {R : α → β → Prop} {S : γ → δ → Prop} {o : Option α} {o' : Option β}
    {f : α → Option γ} {g : β → Option δ} (h : Option.Rel R o o')
    (hfg : ∀ a b, R a b → Option.Rel S (f a) (g b)) : Option.Rel S (o.bind f) (o'.bind g) := by
  cases h with
  | none => exact .none
  | some hR => exact hfg _ _ hR

/-! ## Members by name -/

/-- Two lists of members hold the same under every name, where `null` counts for nothing. -/
def Agree (fields fields' : List (String × Document)) : Prop :=
  ∀ name, present? name fields = present? name fields'

/-- A member whose name no other member has is found under its name. -/
theorem lookup_eq_some_iff_mem (distinct : (fields.map Prod.fst).Nodup) :
    fields.lookup name = some d ↔ (name, d) ∈ fields := by
  induction fields with
  | nil => simp
  | cons m fields ih =>
    obtain ⟨hfirst, hrest⟩ := List.nodup_cons.1 distinct
    have ih := ih hrest
    rw [List.lookup_cons]
    by_cases hname : name = m.1
    · -- No later member has the name of the first.
      have hlater : (name, d) ∉ fields := fun hmem =>
        hfirst (hname ▸ List.mem_map_of_mem hmem)
      obtain ⟨name', d'⟩ := m
      obtain rfl : name = name' := hname
      simp [hlater, eq_comm]
    · have hbeq : (name == m.1) = false := beq_false_of_ne hname
      have hother : (name, d) ≠ m := fun heq => hname (congrArg Prod.fst heq)
      simp [hbeq, hother, ih]

/-- What is present under a name is the member there, unless that is `null`. -/
theorem present?_eq_some_iff :
    present? name fields = some d ↔ fields.lookup name = some d ∧ d ≠ .null := by
  unfold present?
  split
  · rename_i hnull
    rw [hnull]
    exact ⟨fun h => absurd h (Option.some_ne_none d).symm, fun h => absurd (Option.some.inj h.1).symm h.2⟩
  · rename_i hne
    exact ⟨fun h => ⟨h, fun hd => hne (hd ▸ h)⟩, And.left⟩

/-- A member that is not `null` is present under its name. -/
theorem present?_of_lookup (h : fields.lookup name = some d) (hd : d ≠ .null) :
    present? name fields = some d :=
  present?_eq_some_iff.2 ⟨h, hd⟩

/-- The order of members with distinct names does not matter. -/
theorem agree_of_perm (h : fields.Perm fields') (distinct : (fields.map Prod.fst).Nodup) :
    Agree fields fields' := by
  intro name
  have distinct' : (fields'.map Prod.fst).Nodup := (h.map Prod.fst).nodup_iff.1 distinct
  have hlookup : fields.lookup name = fields'.lookup name := by
    refine Option.ext fun d => ?_
    rw [lookup_eq_some_iff_mem distinct, lookup_eq_some_iff_mem distinct', h.mem_iff]
  rw [present?, present?, hlookup]

/-- A member that is `null` might as well not be there. -/
theorem agree_cons_null (missing : ∀ f ∈ fields, f.1 ≠ name) : Agree fields ((name, .null) :: fields) := by
  intro other
  by_cases hname : other = name
  · have hnone : fields.lookup name = none := by
      refine List.lookup_eq_none_iff.2 fun f hf => ?_
      simpa using (missing f hf).symm
    rw [hname, present?, present?, hnone, List.lookup_cons_self]
  · have hbeq : (other == name) = false := beq_false_of_ne hname
    rw [present?, present?, List.lookup_cons, hbeq]

/-! ## Keys as text -/

/-- The keys of members are read one by one. -/
theorem keyed?_cons (key : List Piece) (d : Document) (ms : List (List Piece × Document)) :
    keyed? ((key, d) :: ms) = (text? key).bind fun k => (keyed? ms).map ((k, d) :: ·) := by
  rw [keyed?]
  cases text? key with
  | none => rfl
  | some k => cases keyed? ms <;> rfl

/-- Members in another order have their keys read in that order. -/
theorem keyed?_perm (h : ms.Perm ms') : Option.Rel List.Perm (keyed? ms) (keyed? ms') := by
  induction h with
  | nil => exact .some .nil
  | cons m _ ih =>
    obtain ⟨key, d⟩ := m
    rw [keyed?_cons, keyed?_cons]
    cases text? key with
    | none => exact .none
    | some k =>
      simp only [Option.bind_some, Option.map_eq_bind]
      exact rel_bind ih fun _ _ hperm => .some (hperm.cons (k, d))
  | swap m m' ms =>
    obtain ⟨key, d⟩ := m
    obtain ⟨key', d'⟩ := m'
    simp only [keyed?_cons]
    cases text? key' with
    | none => cases text? key <;> exact .none
    | some k' =>
      cases text? key with
      | none => exact .none
      | some k =>
        cases keyed? ms with
        | none => exact .none
        | some fields => exact .some (.swap (k, d) (k', d') fields)
  | @trans ms ms' ms'' _ _ ih ih' =>
    generalize keyed? ms = o, keyed? ms' = o', keyed? ms'' = o'' at ih ih' ⊢
    cases ih with
    | none => exact ih'
    | some hperm =>
      cases ih' with
      | some hperm' => exact .some (hperm.trans hperm')

/-- The members whose keys were read are those that were written, each under the text of its key. -/
theorem mem_keyed?_iff (h : keyed? ms = some fields) :
    (k, d) ∈ fields ↔ ∃ m ∈ ms, text? m.1 = some k ∧ m.2 = d := by
  induction ms generalizing fields with
  | nil =>
    obtain rfl := Option.some.inj h
    simp
  | cons m ms ih =>
    obtain ⟨key, e⟩ := m
    rw [keyed?_cons] at h
    obtain ⟨k', hk', hrest⟩ := Option.bind_eq_some_iff.1 h
    obtain ⟨fields', hfields', rfl⟩ := Option.map_eq_some_iff.1 hrest
    have hfirst : (k, d) = (k', e) ↔ text? key = some k ∧ e = d := by
      rw [hk', Option.some.injEq, Prod.mk.injEq, eq_comm, @eq_comm _ d]
    rw [List.mem_cons, ih hfields', hfirst, List.exists_mem_cons_iff]

/-- Keys are not read if one of them is no text. -/
theorem keyed?_eq_none {m : List Piece × Document} (hm : m ∈ ms) (hkey : text? m.1 = none) :
    keyed? ms = none := by
  induction ms with
  | nil => simp at hm
  | cons m' ms ih =>
    obtain ⟨key, d⟩ := m'
    rw [keyed?_cons]
    rcases List.mem_cons.1 hm with rfl | hm
    · rw [hkey, Option.bind_none]
    · rw [ih hm]
      cases text? key <;> rfl

/-! ## The named members of an object -/

/-- The members with the given names, if no two have one name. -/
def named? (names : List String) (fields : List (String × Document)) :
    Option (List (String × Document)) :=
  let named := fields.filter fun (k, _) => names.contains k
  if (named.map Prod.fst).Nodup then some named else none

/-- The members with the given names are picked out, if no two have one name. -/
theorem named?_eq_some_iff : named? names fields = some fields' ↔
    ((fields.filter fun m => names.contains m.1).map Prod.fst).Nodup ∧
      fields' = fields.filter fun m => names.contains m.1 := by
  rw [named?, Option.ite_none_right_eq_some, Option.some.injEq, eq_comm]

/-- The named members of an object are those among its members whose keys are text. -/
theorem fields?_object : (object ms).fields? names = (keyed? ms).bind (named? names) := rfl

/-- The order of an object's members does not matter. -/
theorem fields?_perm (h : ms.Perm ms') :
    Option.Rel Agree ((object ms).fields? names) ((object ms').fields? names) := by
  rw [fields?_object, fields?_object]
  refine rel_bind (keyed?_perm h) fun fields fields' hperm => ?_
  have hnamed := hperm.filter fun f => names.contains f.1
  have hiff := (hnamed.map Prod.fst).nodup_iff
  unfold named?
  by_cases distinct : ((fields.filter fun f => names.contains f.1).map Prod.fst).Nodup
  · simp only [if_pos distinct, if_pos (hiff.1 distinct)]
    exact .some (agree_of_perm hnamed distinct)
  · simp only [if_neg distinct, if_neg (mt hiff.2 distinct)]
    exact .none

/-- A member with another name does not matter. -/
theorem fields?_cons_of_not_mem (hkey : text? key = some k) (hk : k ∉ names) :
    (object ((key, d) :: ms)).fields? names = (object ms).fields? names := by
  rw [fields?_object, fields?_object, keyed?_cons, hkey, Option.bind_some]
  cases keyed? ms with
  | none => rfl
  | some fields =>
    have hfilter : ((k, d) :: fields).filter (fun f => names.contains f.1) =
        fields.filter fun f => names.contains f.1 := List.filter_cons_of_neg (by simpa using hk)
    simp only [Option.map_some, Option.bind_some, named?, hfilter]

/-- A `null` for a named member that is not there does not matter. -/
theorem fields?_cons_null (hkey : text? key = some name) (hname : name ∈ names)
    (missing : ∀ m ∈ ms, text? m.1 ≠ some name) :
    Option.Rel Agree ((object ms).fields? names) ((object ((key, .null) :: ms)).fields? names) := by
  rw [fields?_object, fields?_object, keyed?_cons, hkey, Option.bind_some]
  cases hkeyed : keyed? ms with
  | none => exact .none
  | some fields =>
    have hmissing : ∀ f ∈ fields.filter fun f => names.contains f.1, f.1 ≠ name := by
      intro f hf heq
      obtain ⟨m, hm, htext, -⟩ := (mem_keyed?_iff hkeyed).1 (List.mem_of_mem_filter hf)
      exact missing m hm (heq ▸ htext)
    have hfilter : ((name, Document.null) :: fields).filter (fun f => names.contains f.1) =
        (name, .null) :: fields.filter fun f => names.contains f.1 :=
      List.filter_cons_of_pos (by simpa using hname)
    have hfirst : name ∉ (fields.filter fun f => names.contains f.1).map Prod.fst := by
      intro hmem
      obtain ⟨f, hf, heq⟩ := List.mem_map.1 hmem
      exact hmissing f hf heq
    simp only [Option.map_some, Option.bind_some, named?, hfilter, List.map_cons, List.nodup_cons,
      hfirst, not_false_eq_true, true_and]
    split
    · exact .some (agree_cons_null hmissing)
    · exact .none

/-! ## The object with given members -/

/-- The object with certain members. -/
def ofFields (fields : List (String × Document)) : Document :=
  .object (fields.map fun m => (pieces m.1.toList, m.2))

/-- The keys of such an object are read as the names of its members. -/
theorem keyed?_ofFields (fields : List (String × Document)) :
    keyed? (fields.map fun m => (pieces m.1.toList, m.2)) = some fields := by
  induction fields with
  | nil => rfl
  | cons m fields ih => simp [keyed?, text?_pieces, ih]

/-- The named members of such an object are those among the given ones. -/
theorem fields?_ofFields_eq (names : List String) (fields : List (String × Document)) :
    (ofFields fields).fields? names = named? names fields := by
  rw [ofFields, fields?_object, keyed?_ofFields, Option.bind_some]

/-- A value under a name is spelled by a document under the same name. -/
def SpellsField (m : String × Json) (f : String × Document) : Prop :=
  m.1 = f.1 ∧ SpellsDocument m.2 f.2

/-- An object whose members are spelled by documents is spelled by the object with these. -/
theorem spells_ofFields {members : List (String × Json)}
    (h : List.Forall₂ SpellsField members fields) :
    SpellsDocument (.object members) (ofFields fields) := by
  refine spells_object ?_
  rw [List.forall₂_map_right_iff]
  exact h.imp fun m f ⟨hkey, hspelled⟩ => ⟨by rw [hkey], hspelled⟩

/-- The first names that documents stand under are distinct if all are. -/
theorem fst_zip_sublist (names : List String) (ds : List Document) :
    ((names.zip ds).map Prod.fst).Sublist names := by
  induction names generalizing ds with
  | nil => exact .slnil
  | cons name names ih =>
    cases ds with
    | nil => exact List.nil_sublist _
    | cons d ds => exact (ih ds).cons_cons name

/-- The named members of an array are its items, if there are not too many. -/
theorem fields?_array_eq_some_iff {ds : List Document} :
    (Document.array ds).fields? names = some fields ↔
      ds.length ≤ names.length ∧ fields = names.zip ds := by
  rw [fields?, Option.ite_none_right_eq_some, Option.some.injEq, eq_comm]

/-- The named members of a document have some of the names, each at most once. -/
theorem names_of_fields? (distinct : names.Nodup) (h : d.fields? names = some fields) :
    (∀ m ∈ fields, names.contains m.1 = true) ∧ (fields.map Prod.fst).Nodup := by
  cases d with
  | array ds =>
    obtain ⟨-, rfl⟩ := fields?_array_eq_some_iff.1 h
    have hsublist := fst_zip_sublist names ds
    refine ⟨fun m hm => ?_, distinct.sublist hsublist⟩
    simpa using hsublist.subset (List.mem_map_of_mem hm)
  | object members =>
    obtain ⟨keyed, -, hnamed⟩ := Option.bind_eq_some_iff.1 h
    obtain ⟨hnodup, rfl⟩ := named?_eq_some_iff.1 hnamed
    exact ⟨fun m hm => (List.mem_filter.1 hm).2, hnodup⟩
  | null | bool | number | string => simp [fields?] at h

/-- A document gives something for a name: an object by the member of that name, an array by the item
in the name's place. A `null` there gives nothing. -/
inductive Gives (names : List String) (name : String) : Document → Document → Prop where
  | member {ms : List (List Piece × Document)} {m : List Piece × Document} (mem : m ∈ ms)
      (key : text? m.1 = some name) (given : m.2 ≠ .null) : Gives names name (.object ms) m.2
  | item {ds : List Document} {d : Document} {i : Nat} (place : names[i]? = some name)
      (there : ds[i]? = some d) (given : d ≠ .null) : Gives names name (.array ds) d

/-- What is present under a name is what the document gives for it. -/
theorem present?_eq_some_iff_gives {v : Document} (distinct : names.Nodup) (known : name ∈ names)
    (h : d.fields? names = some fields) : present? name fields = some v ↔ d.Gives names name v := by
  rw [present?_eq_some_iff, lookup_eq_some_iff_mem (names_of_fields? distinct h).2]
  cases d with
  | array ds =>
    obtain ⟨-, rfl⟩ := fields?_array_eq_some_iff.1 h
    rw [List.mem_iff_getElem?]
    simp only [List.getElem?_zip_eq_some]
    constructor
    · rintro ⟨⟨i, place, there⟩, given⟩
      exact .item place there given
    · intro hgives
      cases hgives with
      | item place there given => exact ⟨⟨_, place, there⟩, given⟩
  | object ms =>
    obtain ⟨keyed, hkeyed, hnamed⟩ := Option.bind_eq_some_iff.1 h
    obtain ⟨-, rfl⟩ := named?_eq_some_iff.1 hnamed
    rw [List.mem_filter, mem_keyed?_iff hkeyed]
    constructor
    · rintro ⟨⟨⟨m, mem, key, rfl⟩, -⟩, given⟩
      exact .member mem key given
    · intro hgives
      cases hgives with
      | member mem key given => exact ⟨⟨⟨_, mem, key, rfl⟩, by simpa using known⟩, given⟩
  | null | bool | number | string => simp [fields?] at h

/-- The named members of a document are those of the object that has no others. -/
theorem fields?_ofFields (distinct : names.Nodup) (h : d.fields? names = some fields) :
    (ofFields fields).fields? names = some fields := by
  obtain ⟨hknown, hnodup⟩ := names_of_fields? distinct h
  have hfilter : fields.filter (fun m => names.contains m.1) = fields := List.filter_eq_self.2 hknown
  simp only [fields?_ofFields_eq, named?, hfilter, if_pos hnodup]

end Json.Document

namespace Inbound

variable {frame : Bytes} {d d' : Document} {fields fields' : List (String × Document)}

/-- The members of a message, read from named ones. -/
def Members.ofFields? (fields : List (String × Document)) : Option Members := do
  let id ← optional? CallId.ofDocument? "id" fields
  let method ← optional? Document.string? "method" fields
  let result ← optional? (Document.value? (Json.maxLevels - 1)) "result" fields
  let error ← optional? (Failure.ofDocument? (Json.maxLevels - 1)) "error" fields
  pure ⟨id, method, result, error⟩

section Optional

variable {α : Type} {read : Document → Option α} {name : String}

/-- A member that is left out is absent. -/
theorem optional?_of_missing (h : fields.lookup name = none) :
    optional? read name fields = some none := by
  rw [optional?, Document.present?, h]

/-- A member that is `null` is absent. -/
theorem optional?_of_null (h : fields.lookup name = some .null) :
    optional? read name fields = some none := by
  rw [optional?, Document.present?, h]

/-- A member that is there and not `null` is read. -/
theorem optional?_of_lookup (h : fields.lookup name = some d) (hd : d ≠ .null) :
    optional? read name fields = (read d).map some := by
  rw [optional?, Document.present?_of_lookup h hd]

/-- A member that may be absent was read as absent or from what is present. -/
theorem optional?_cases {o : Option α} (h : optional? read name fields = some o) :
    (Document.present? name fields = none ∧ o = none) ∨
      ∃ d v, Document.present? name fields = some d ∧ read d = some v ∧ o = some v := by
  unfold optional? at h
  split at h
  · rename_i hnone
    exact Or.inl ⟨hnone, (Option.some.inj h).symm⟩
  · rename_i d hsome
    obtain ⟨v, hv, heq⟩ := Option.map_eq_some_iff.1 h
    exact Or.inr ⟨d, v, hsome, hv, heq.symm⟩

end Optional

/-- The members of a message are read from the named members of a document. -/
theorem Members.ofDocument?_eq (d : Document) :
    Members.ofDocument? d = (d.fields? memberNames).bind Members.ofFields? := rfl

/-- Lists that hold the same under every name are read alike. -/
theorem Members.ofFields?_congr (h : Document.Agree fields fields') :
    Members.ofFields? fields = Members.ofFields? fields' := by
  have hfound : ∀ name, Document.present? name fields = Document.present? name fields' := h
  simp only [Members.ofFields?, optional?, hfound]

/-- Documents whose named members agree are read alike. -/
theorem Members.ofDocument?_congr
    (h : Option.Rel Document.Agree (d.fields? memberNames) (d'.fields? memberNames)) :
    Members.ofDocument? d = Members.ofDocument? d' := by
  rw [Members.ofDocument?_eq, Members.ofDocument?_eq]
  generalize d.fields? memberNames = o at h ⊢
  generalize d'.fields? memberNames = o' at h ⊢
  cases h with
  | none => rfl
  | some hagree => exact Members.ofFields?_congr hagree

/-- Named members that are read one by one are the members of a message. -/
theorem Members.ofFields?_eq_some {m : Members}
    (hid : optional? CallId.ofDocument? "id" fields = some m.id)
    (hmethod : optional? Document.string? "method" fields = some m.method)
    (hresult : optional? (Document.value? (Json.maxLevels - 1)) "result" fields = some m.result)
    (herror : optional? (Failure.ofDocument? (Json.maxLevels - 1)) "error" fields = some m.error) :
    Members.ofFields? fields = some m := by
  simp only [Members.ofFields?, hid, hmethod, hresult, herror, Option.bind_eq_bind, Option.bind_some,
    Option.pure_def]

/-- What is in a frame is settled by the document that is written there. -/
theorem parse_of_writes (h : Writes frame d.tokens) :
    parse frame =
      match Members.ofDocument? d with
      | some m => ofMembers m
      | none => .error .malformed := by
  rw [parse, Document.parse?_eq_some_iff.2 h]
  rfl

/-- An object is the message that its named members are, in whatever order they are written. -/
theorem parse_object {members written : List (String × Json)} {m : Members}
    (horder : written.Perm members) (hspelled : List.Forall₂ Document.SpellsField members fields)
    (hnamed : Document.named? memberNames fields = some fields')
    (hread : Members.ofFields? fields' = some m) :
    parse (Json.object written).bytes = ofMembers m := by
  obtain ⟨reordered, hspelled', hperm⟩ := List.perm_comp_forall₂ horder hspelled
  have hwrites := Document.parse?_eq_some_iff.1 (Document.spells_ofFields hspelled').parse?_bytes
  have hsame : Members.ofDocument? (Document.ofFields reordered) =
      Members.ofDocument? (Document.ofFields fields) :=
    Members.ofDocument?_congr (Document.fields?_perm (hperm.map _))
  have hmembers : Members.ofDocument? (Document.ofFields reordered) = some m := by
    rw [hsame, Members.ofDocument?_eq, Document.fields?_ofFields_eq, hnamed, Option.bind_some, hread]
  rw [parse_of_writes hwrites, hmembers]

end Inbound

end PipeCall
