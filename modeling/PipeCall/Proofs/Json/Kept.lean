import PipeCall.Proofs.Json.Finite

/-!
# Values that were read

Not every value comes out of a text. Those that do have integers of 64 bits and finite doubles for
their numbers, their objects have their members in the order of the keys, each key once, and they nest
only so deep: `Kept levels v` says so of a value, and `kept_of_value?` that it holds of what a document
denotes. So such a value can be written (`Kept.isFinite`), and if all its numbers are integers it is
read back as it was (`Kept.exact`).
-/

namespace PipeCall.Json

variable {levels : Nat} {v : Json} {members : List (String × Json)}

/-- A value as it is kept once it was read, which nests at most `levels` deep. -/
inductive Kept : Nat → Json → Prop where
  | null (levels : Nat) : Kept levels .null
  | bool (levels : Nat) (b : Bool) : Kept levels (.bool b)
  | integer {n : Int} (levels : Nat) (low : -(Decimal.signedLimit : Int) ≤ n)
      (high : n < Decimal.wordLimit) : Kept levels (.number (.integer n))
  | double {d : Double} (levels : Nat) (finite : d.IsFinite) : Kept levels (.number (.double d))
  | string (levels : Nat) (s : String) : Kept levels (.string s)
  | array {levels : Nat} {items : List Json} (kept : ∀ v ∈ items, Kept levels v) :
      Kept (levels + 1) (.array items)
  | object {levels : Nat} {members : List (String × Json)}
      (sorted : members.Pairwise fun m m' => m.1 < m'.1) (kept : ∀ m ∈ members, Kept levels m.2) :
      Kept (levels + 1) (.object members)

/-- A value all of whose numbers are integers. Minus zero is none: it is read as a double. -/
inductive Integral : Json → Prop where
  | null : Integral .null
  | bool (b : Bool) : Integral (.bool b)
  | integer (n : Int) : Integral (.number (.integer n))
  | string (s : String) : Integral (.string s)
  | array {items : List Json} (integral : ∀ v ∈ items, Integral v) : Integral (.array items)
  | object {members : List (String × Json)} (integral : ∀ m ∈ members, Integral m.2) :
      Integral (.object members)

/-! ## What is known of such a value -/

/-- A value that was read is finite. -/
theorem Kept.isFinite (h : v.Kept levels) : v.IsFinite := by
  induction h with
  | null => exact .null
  | bool _ b => exact .bool b
  | integer => exact .integer _
  | double _ finite => exact .double finite
  | string _ s => exact .string s
  | array _ ih => exact .array ih
  | object _ _ ih => exact .object ih

/-- A value that was read, and all of whose numbers are integers, is exact. -/
theorem Kept.exact (h : v.Kept levels) (integral : v.Integral) : v.Exact levels := by
  induction h with
  | null levels => exact .null levels
  | bool levels b => exact .bool levels b
  | integer levels low high => exact .integer levels low high
  | double => cases integral
  | string levels s => exact .string levels s
  | array _ ih =>
    cases integral with
    | array integral => exact .array fun v hv => ih v hv (integral v hv)
  | object sorted _ ih =>
    cases integral with
    | object integral => exact .object sorted fun m hm => ih m hm (integral m hm)

/-! ## What a document denotes -/

/-- A member of a list into which one was put is that one or was there before. -/
theorem mem_of_mem_insertMember {key : String} {m : String × Json}
    (h : m ∈ insertMember key v members) : m = (key, v) ∨ m ∈ members := by
  induction members with
  | nil => exact Or.inl (List.mem_singleton.1 h)
  | cons first rest ih =>
    unfold insertMember at h
    split at h
    · exact List.mem_cons.1 h
    · split at h
      · exact (List.mem_cons.1 h).imp_right (List.mem_cons_of_mem first)
      · rcases List.mem_cons.1 h with rfl | hrest
        · exact Or.inr List.mem_cons_self
        · exact (ih hrest).imp_right (List.mem_cons_of_mem first)

/-- A list in the order of its keys stays so when a member is put into it. -/
theorem pairwise_insertMember {key : String} (h : members.Pairwise fun m m' => m.1 < m'.1) :
    (insertMember key v members).Pairwise fun m m' => m.1 < m'.1 := by
  induction members with
  | nil => exact List.pairwise_singleton _ _
  | cons first rest ih =>
    obtain ⟨hfirst, hrest⟩ := List.pairwise_cons.1 h
    unfold insertMember
    split
    · -- It comes before the first, and so before all.
      rename_i hlt
      refine List.pairwise_cons.2 ⟨fun m hm => ?_, h⟩
      rcases List.mem_cons.1 hm with rfl | hm
      · exact hlt
      · exact String.lt_trans hlt (hfirst m hm)
    · rename_i hnot
      split
      · -- It takes the place of the first.
        rename_i heq
        exact List.pairwise_cons.2 ⟨fun m hm => heq ▸ hfirst m hm, hrest⟩
      · rename_i hne
        have hlt : first.1 < key := by
          refine Classical.byContradiction fun hcontra => hne ?_
          exact String.le_antisymm (String.not_lt.1 hcontra) (String.not_lt.1 hnot)
        refine List.pairwise_cons.2 ⟨fun m hm => ?_, ih hrest⟩
        rcases mem_of_mem_insertMember hm with rfl | hm
        · exact hlt
        · exact hfirst m hm

/-- An object of members that are kept is kept. -/
theorem kept_ofMembers (h : ∀ m ∈ members, m.2.Kept levels) :
    (ofMembers members).Kept (levels + 1) := by
  have hfold : ∀ sorted : List (String × Json), (sorted.Pairwise fun m m' => m.1 < m'.1) →
      (∀ m ∈ sorted, m.2.Kept levels) →
      (Json.object (members.foldl (fun sorted m => insertMember m.1 m.2 sorted) sorted)).Kept
        (levels + 1) := by
    induction members with
    | nil => exact fun _ hpairwise hsorted => .object hpairwise hsorted
    | cons first rest ih =>
      intro sorted hpairwise hsorted
      refine ih (fun m hm => h m (List.mem_cons_of_mem first hm)) _
        (pairwise_insertMember hpairwise) fun m hm => ?_
      rcases mem_of_mem_insertMember hm with rfl | hm
      · exact h first List.mem_cons_self
      · exact hsorted m hm
  exact hfold [] .nil (by simp)

mutual

/-- The value of a document is kept. -/
theorem kept_of_value? : (d : Document) → {levels : Nat} → {v : Json} →
    d.value? levels = some v → v.Kept levels
  | .null, levels, _, h => by
    obtain rfl := Option.some.inj h
    exact .null levels
  | .bool b, levels, _, h => by
    obtain rfl := Option.some.inj h
    exact .bool levels b
  | .number l, levels, _, h => by
    obtain ⟨n, hn, rfl⟩ := Option.map_eq_some_iff.1 h
    cases n with
    | integer k =>
      obtain ⟨hlow, hhigh⟩ := NumberLiteral.bounds_of_number? hn
      exact .integer levels hlow hhigh
    | double d => exact .double levels (NumberLiteral.isFinite_of_number? hn)
  | .string ps, levels, _, h => by
    obtain ⟨s, -, rfl⟩ := Option.map_eq_some_iff.1 h
    exact .string levels s
  | .array ds, levels, _, h => by
    cases levels with
    | zero => simp [Document.value?] at h
    | succ levels =>
      obtain ⟨vs, hvs, rfl⟩ := Option.map_eq_some_iff.1 h
      exact .array (kept_of_values? ds hvs)
  | .object es, levels, _, h => by
    cases levels with
    | zero => simp [Document.value?] at h
    | succ levels =>
      obtain ⟨ms, hms, rfl⟩ := Option.map_eq_some_iff.1 h
      exact kept_ofMembers (kept_of_memberValues? es hms)

/-- The values of items are kept. -/
theorem kept_of_values? : (ds : List Document) → {levels : Nat} → {vs : List Json} →
    Document.values? levels ds = some vs → ∀ v ∈ vs, v.Kept levels
  | [], _, _, h => by
    obtain rfl := Option.some.inj h
    simp
  | d :: ds, _, _, h => by
    obtain ⟨v, hv, h⟩ := Option.bind_eq_some_iff.1 h
    obtain ⟨vs, hvs, heq⟩ := Option.bind_eq_some_iff.1 h
    obtain rfl := Option.some.inj heq
    rw [List.forall_mem_cons]
    exact ⟨kept_of_value? d hv, kept_of_values? ds hvs⟩

/-- The values of members are kept. -/
theorem kept_of_memberValues? : (es : List (List Piece × Document)) → {levels : Nat} →
    {ms : List (String × Json)} → Document.memberValues? levels es = some ms →
    ∀ m ∈ ms, m.2.Kept levels
  | [], _, _, h => by
    obtain rfl := Option.some.inj h
    simp
  | (key, d) :: es, _, _, h => by
    obtain ⟨k, -, h⟩ := Option.bind_eq_some_iff.1 h
    obtain ⟨v, hv, h⟩ := Option.bind_eq_some_iff.1 h
    obtain ⟨ms, hms, heq⟩ := Option.bind_eq_some_iff.1 h
    obtain rfl := Option.some.inj heq
    rw [List.forall_mem_cons]
    exact ⟨kept_of_value? d hv, kept_of_memberValues? es hms⟩

end

/-- A value that was parsed is kept, and nests no deeper than is allowed. -/
theorem kept_of_parse? {bs : Bytes} (h : parse? bs = some v) : v.Kept maxLevels := by
  obtain ⟨d, -, hvalue⟩ := Option.bind_eq_some_iff.1 h
  exact kept_of_value? d hvalue

end PipeCall.Json
