import PipeCall.Invocation
import PipeCall.Proofs.Json.Kept
import PipeCall.Proofs.Json.Syntax

/-!
# What a command line asks for

The first separator cuts a command line in two (`Invocation.Cut`). What stands before it has to call
for something (`Invocation.Calls`): a method by itself, or a method and a text with its parameters in
JSON. What stands behind it is the command and its arguments, of whatever form, further separators
among them. A command line that lacks one of these is refused for a reason, and several can apply at
once: `Invocation.command_line_answered` says which command lines are accepted, and that of the
reasons to refuse one the first in their order is given.
-/

namespace PipeCall

open Json (Document Writes)

/-- A value is written as a text: a document is written there that denotes the value. A document denotes
a value only within the limits of the reader: at most `maxLevels` levels of arrays and objects, numbers
that are finite as doubles, and strings in which every half of a surrogate pair has the other. -/
def Json.WrittenAs (v : Json) (raw : String) : Prop :=
  ∃ d : Document, Writes (Utf8.encode raw) d.tokens ∧ d.value? maxLevels = some v

/-- A text is parsed as the value that is written there. -/
theorem Json.parse?_encode_eq_some_iff {raw : String} {v : Json} :
    parse? (Utf8.encode raw) = some v ↔ v.WrittenAs raw := by
  simp only [parse?, Option.bind_eq_some_iff, Document.parse?_eq_some_iff, WrittenAs]

/-- A value that is written as a text is finite. -/
theorem Json.WrittenAs.isFinite {raw : String} {v : Json} (h : v.WrittenAs raw) : v.IsFinite :=
  (kept_of_parse? (parse?_encode_eq_some_iff.2 h)).isFinite

namespace Invocation

variable {args head rest : List String} {i : Invocation} {e e' : UsageError} {method : String}
  {params : Json}

/-! ## The two parts of a command line -/

/-- The arguments before the first separator, and those behind it, if there are any. -/
inductive Cut : List String → List String → List String → Prop where
  /-- There is no separator. -/
  | absent {args : List String} (none : separator ∉ args) : Cut args args []
  /-- The separator is the first one. -/
  | found {head rest : List String} (first : separator ∉ head) :
      Cut (head ++ separator :: rest) head rest

/-- What stands before the first separator is all up to it, and the rest is behind it. -/
theorem Cut.eq_parts (h : Cut args head rest) :
    head = args.takeWhile (· ≠ separator) ∧ rest = (args.dropWhile (· ≠ separator)).drop 1 := by
  have hother : ∀ {args : List String}, separator ∉ args →
      ∀ a ∈ args, decide (a ≠ separator) = true := by
    intro args none a ha
    exact decide_eq_true fun heq => none (heq ▸ ha)
  cases h with
  | absent none =>
    rw [List.takeWhile_eq_self_iff.2 (hother none), List.dropWhile_eq_nil_iff.2 (hother none)]
    exact ⟨rfl, rfl⟩
  | found first =>
    rw [List.takeWhile_append_of_pos (hother first), List.dropWhile_append_of_pos (hother first)]
    simp

/-- Every command line has its two parts. -/
theorem cut_parts (args : List String) :
    Cut args (args.takeWhile (· ≠ separator)) ((args.dropWhile (· ≠ separator)).drop 1) := by
  suffices hcut : ∃ head rest, Cut args head rest by
    obtain ⟨head, rest, h⟩ := hcut
    obtain ⟨rfl, rfl⟩ := h.eq_parts
    exact h
  induction args with
  | nil => exact ⟨[], [], .absent (by simp)⟩
  | cons a args ih =>
    by_cases ha : a = separator
    · exact ⟨[], args, ha ▸ @Cut.found [] args (by simp)⟩
    · obtain ⟨head, rest, hcut⟩ := ih
      cases hcut with
      | absent none => exact ⟨a :: args, [], .absent (by simp [none, Ne.symm ha])⟩
      | found first => exact ⟨a :: head, rest, @Cut.found (a :: head) _ (by simp [first, Ne.symm ha])⟩

/-! ## The call -/

/-- These arguments call for a method with parameters. -/
inductive Calls : List String → String → Json → Prop where
  /-- Without a text for them the parameters are an empty object. -/
  | plain (method : String) : Calls [method] method Json.emptyObject
  /-- The parameters are written as the text behind the method. -/
  | given (method : String) {raw : String} {params : Json} (written : params.WrittenAs raw) :
      Calls [method, raw] method params

/-- The parameters are finite. -/
theorem Calls.isFinite (h : Calls head method params) : params.IsFinite := by
  cases h with
  | plain => exact .object (by simp)
  | given _ written => exact written.isFinite

/-- What is called for is determined by the arguments. -/
theorem Calls.unique {method' : String} {params' : Json} (h : Calls head method params)
    (h' : Calls head method' params') : method = method' ∧ params = params' := by
  cases h with
  | plain =>
    cases h'
    exact ⟨rfl, rfl⟩
  | given _ written =>
    cases h' with
    | given _ written' =>
      have hparse := Json.parse?_encode_eq_some_iff.2 written
      rw [Json.parse?_encode_eq_some_iff.2 written'] at hparse
      exact ⟨rfl, (Option.some.inj hparse).symm⟩

/-! ## Reasons to refuse -/

/-- Why a command line with these parts can be refused. -/
inductive Reason (head rest : List String) : UsageError → Prop where
  | missingMethod (none : head = []) : Reason head rest .missingMethod
  | invalidParams {raw : String} (second : head[1]? = some raw)
      (invalid : ∀ v : Json, ¬v.WrittenAs raw) : Reason head rest (.invalidParams raw)
  | unexpectedArgument {extra : String} (third : head[2]? = some extra) :
      Reason head rest (.unexpectedArgument extra)
  | missingCommand (none : rest = []) : Reason head rest .missingCommand

/-- Where a reason stands in the order in which they count. -/
def UsageError.rank : UsageError → Nat
  | .missingMethod => 0
  | .invalidParams _ => 1
  | .unexpectedArgument _ => 2
  | .missingCommand => 3

/-- A reason applies, and none that applies comes before it. -/
structure FirstReason (head rest : List String) (e : UsageError) : Prop where
  applies : Reason head rest e
  first : ∀ e', Reason head rest e' → e.rank ≤ e'.rank

/-- Of the reasons to refuse a command line one is the first. -/
theorem FirstReason.unique (h : FirstReason head rest e) (h' : FirstReason head rest e') : e = e' := by
  have hrank : e.rank = e'.rank := Nat.le_antisymm (h.first e' h'.applies) (h'.first e h.applies)
  cases h.applies <;> cases h'.applies <;> simp_all [UsageError.rank]

/-- Only the command can be missing behind arguments that call for something. -/
theorem Calls.reason (h : Calls head method params) (hreason : Reason head rest e) :
    e = .missingCommand ∧ rest = [] := by
  cases hreason with
  | missingMethod none => cases h <;> simp at none
  | invalidParams second invalid =>
    cases h with
    | plain => simp at second
    | given _ written =>
      obtain rfl := Option.some.inj second
      exact absurd written (invalid _)
  | unexpectedArgument third => cases h <;> simp at third
  | missingCommand none => exact ⟨rfl, none⟩

/-- A text is read as the value that is written there, and is invalid if there is none. -/
theorem readParams_some (raw : String) :
    (∃ v : Json, v.WrittenAs raw ∧ readParams (some raw) = .ok v) ∨
      (∀ v : Json, ¬v.WrittenAs raw) ∧ readParams (some raw) = .error (.invalidParams raw) := by
  unfold readParams
  cases hparse : Json.parse? (Utf8.encode raw) with
  | some v => exact Or.inl ⟨v, Json.parse?_encode_eq_some_iff.1 hparse, by simp only [hparse]⟩
  | none =>
    refine Or.inr ⟨fun v hv => ?_, by simp only [hparse]⟩
    rw [Json.parse?_encode_eq_some_iff.2 hv] at hparse
    simp at hparse

/-- The arguments before the separator are read as what they call for, or refused for the first
reason, whatever stands behind. -/
theorem readCall_cases (head : List String) :
    (∃ method params, Calls head method params ∧ readCall head = .ok (method, params)) ∨
      ∃ e, (∀ rest, FirstReason head rest e) ∧ readCall head = .error e := by
  match head with
  | [] => exact Or.inr ⟨_, fun rest => ⟨.missingMethod rfl, fun e' _ => Nat.zero_le _⟩, rfl⟩
  | [method] => exact Or.inl ⟨method, _, .plain method, rfl⟩
  | method :: raw :: more =>
    rcases readParams_some raw with ⟨v, hwritten, hread⟩ | ⟨hinvalid, hread⟩
    · cases more with
      | nil =>
        refine Or.inl ⟨method, v, .given method hwritten, ?_⟩
        simp [readCall, hread, bind, Except.bind, pure, Except.pure]
      | cons extra more =>
        refine Or.inr ⟨.unexpectedArgument extra, fun rest => ⟨.unexpectedArgument rfl, ?_⟩, ?_⟩
        · intro e' h
          cases h with
          | missingMethod none => simp at none
          | invalidParams second invalid =>
            obtain rfl := Option.some.inj second
            exact absurd hwritten (invalid v)
          | unexpectedArgument => exact Nat.le_refl _
          | missingCommand => exact Nat.le_succ _
        · simp [readCall, hread, bind, Except.bind]
    · refine Or.inr ⟨.invalidParams raw, fun rest => ⟨.invalidParams rfl hinvalid, ?_⟩, ?_⟩
      · intro e' h
        cases h with
        | missingMethod none => simp at none
        | invalidParams | unexpectedArgument | missingCommand => simp [UsageError.rank]
      · simp [readCall, hread, bind, Except.bind]

/-! ## The whole command line -/

/-- A command line is read by its two parts. -/
theorem parse_of_cut (h : Cut args head rest) :
    parse args =
      match readCall head, rest with
      | .error e, _ => .error e
      | .ok _, [] => .error .missingCommand
      | .ok (method, params), command :: args => .ok ⟨method, params, command, args⟩ := by
  obtain ⟨hhead, hrest⟩ := h.eq_parts
  rw [parse, ← hhead, ← hrest]
  cases readCall head with
  | error e => rfl
  | ok call => cases rest <;> rfl

/-- A command line is accepted for what its parts ask for, or refused for the first reason. -/
theorem parse_cases (h : Cut args head rest) :
    (∃ i : Invocation, rest = i.command :: i.args ∧ Calls head i.method i.params ∧
        parse args = .ok i) ∨
      ∃ e, FirstReason head rest e ∧ parse args = .error e := by
  rcases readCall_cases head with ⟨method, params, hcalls, hread⟩ | ⟨e, hfirst, hread⟩
  · cases rest with
    | nil =>
      refine Or.inr ⟨.missingCommand, ⟨.missingCommand rfl, fun e' h' => ?_⟩, ?_⟩
      · obtain ⟨rfl, -⟩ := hcalls.reason h'
        exact Nat.le_refl _
      · rw [parse_of_cut h, hread]
    | cons command args =>
      refine Or.inl ⟨⟨method, params, command, args⟩, rfl, hcalls, ?_⟩
      rw [parse_of_cut h, hread]
  · refine Or.inr ⟨e, hfirst rest, ?_⟩
    rw [parse_of_cut h, hread]

/-- A command line is accepted exactly for what stands before its first separator and behind it. -/
theorem parse_eq_ok_iff : parse args = .ok i ↔
    ∃ head, Cut args head (i.command :: i.args) ∧ Calls head i.method i.params := by
  constructor
  · intro hok
    rcases parse_cases (cut_parts args) with ⟨j, hrest, hcalls, hparse⟩ | ⟨e, -, hparse⟩
    · obtain rfl : i = j := Except.ok.inj (hok.symm.trans hparse)
      exact ⟨_, hrest ▸ cut_parts args, hcalls⟩
    · rw [hok] at hparse
      simp at hparse
  · rintro ⟨head, hcut, hcalls⟩
    rcases parse_cases hcut with ⟨j, hrest, hcalls', hparse⟩ | ⟨e, hfirst, hparse⟩
    · obtain ⟨hcommand, hargs⟩ := List.cons.inj hrest
      obtain ⟨hmethod, hparams⟩ := hcalls.unique hcalls'
      rw [hparse]
      obtain ⟨method, params, command, args⟩ := i
      obtain ⟨method', params', command', args'⟩ := j
      simp_all
    · obtain ⟨-, hnone⟩ := hcalls.reason hfirst.applies
      simp at hnone

/-- A command line is refused exactly for the first reason. -/
theorem parse_eq_error_iff : parse args = .error e ↔
    ∃ head rest, Cut args head rest ∧ FirstReason head rest e := by
  constructor
  · intro herror
    rcases parse_cases (cut_parts args) with ⟨i, -, -, hparse⟩ | ⟨e', hfirst, hparse⟩
    · rw [herror] at hparse
      simp at hparse
    · obtain rfl : e = e' := Except.error.inj (herror.symm.trans hparse)
      exact ⟨_, _, cut_parts args, hfirst⟩
  · rintro ⟨head, rest, hcut, hfirst⟩
    rcases parse_cases hcut with ⟨i, hrest, hcalls, -⟩ | ⟨e', hfirst', hparse⟩
    · obtain ⟨-, hnone⟩ := hcalls.reason hfirst.applies
      rw [hrest] at hnone
      simp at hnone
    · rw [hparse, hfirst.unique hfirst']

/-- No value is written as a separator. -/
theorem ne_separator_of_writtenAs {raw : String} (h : params.WrittenAs raw) : raw ≠ separator := by
  rintro rfl
  have hnone : Json.parse? (Utf8.encode separator) = none := by decide
  rw [Json.parse?_encode_eq_some_iff.2 h] at hnone
  simp at hnone

/-- What becomes of a command line. -/
structure Answered (args : List String) : Prop where
  /-- It is accepted exactly if the arguments before the first separator call for a method with
  parameters and some stand behind it: the first of these is the command, and the others are its
  arguments. -/
  accepted (i : Invocation) : parse args = .ok i ↔
    ∃ head, Cut args head (i.command :: i.args) ∧ Calls head i.method i.params
  /-- It is refused exactly for the first of the reasons that apply. -/
  refused (e : UsageError) : parse args = .error e ↔
    ∃ head rest, Cut args head rest ∧ FirstReason head rest e
  /-- A method other than the separator, a text with its parameters, a separator, a command and any
  arguments are read back as they were put there. -/
  given (method raw command : String) (params : Json) (behind : List String) :
    args = method :: raw :: separator :: command :: behind → method ≠ separator →
      params.WrittenAs raw → parse args = .ok ⟨method, params, command, behind⟩

/-- Every command line is accepted for what its two parts ask for, or refused for the first reason
that applies. -/
theorem command_line_answered (args : List String) : Answered args where
  accepted _ := parse_eq_ok_iff
  refused _ := parse_eq_error_iff
  given method raw command params behind hargs hmethod hwritten := by
    have hraw := ne_separator_of_writtenAs hwritten
    have hhead : separator ∉ [method, raw] := by simp [hmethod.symm, hraw.symm]
    rw [hargs, parse_eq_ok_iff]
    exact ⟨[method, raw], .found hhead, .given method hwritten⟩

/-- Three reasons apply: the parameters are no JSON, there is one argument too many, and there is no
command. -/
example : parse ["m", "[", "x"] = .error (.invalidParams "[") := rfl

/-- The parameters that a command line gives are finite. -/
theorem isFinite_of_parse (h : parse args = .ok i) : i.params.IsFinite := by
  obtain ⟨head, -, hcalls⟩ := parse_eq_ok_iff.1 h
  exact hcalls.isFinite

end Invocation

end PipeCall
