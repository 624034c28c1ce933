import Mathlib.Data.List.Induction
import PipeCall.Proofs.Session.Progress

/-!
# What a client has gone through

A `Course` is everything that happened to a client, change after change, since it was made. Any move
that is possible may come next, a reply may overtake others on its way to the registry, calls may get
their turns in any order, and anything may be done to the client at any time: nothing is said of the
order in which the tasks that share a thread get to run. A course may be cut anywhere (`Course.split`),
so what is shown of the state at the end of every course holds at every moment of one.

A client that is left alone makes the move that it prefers of those that are possible (`Makes`).
`exists_course` says that one that is given commands and then left to settle, again and again, goes
through a course. At rest nothing at all is possible, not even a turn of a single call (`turn?_of_rest`).
-/

namespace PipeCall.Session

/-! ## Where a client begins -/

/-- The settings of a client and of its two streams. -/
structure Setup where
  /-- The greatest length of a message either way. -/
  limit : Nat
  /-- How long a call waits. -/
  timeout : Span
  /-- The greatest number of bytes that one read gives. -/
  chunk : Nat
  /-- How many bytes the output takes at first, if there is a bound. -/
  room : Option Nat
  /-- The greatest number of bytes that one write takes, if there is a bound. -/
  burst : Option Nat

/-- A client that nothing has been done to. -/
def Setup.fresh (u : Setup) : Session :=
  let made := new u.limit u.timeout
  { made with
    intake := { made.intake with input := { made.intake.input with chunk := u.chunk } }
    output := { made.output with room := u.room, burst := u.burst } }

/-- A client on streams without bounds, whose calls wait for ten milliseconds. -/
def Setup.sample : Setup := ⟨1000, .ofMillis 10, 8192, none, none⟩

/-- A call without parameters, for a Boolean. -/
def Order.sample : Order := ⟨"ping", some (.object []), .bool⟩

/-- The reply to the first call. -/
def sampleReply : Bytes := Utf8.encode "\x7b\"id\":1,\"result\":true\x7d\n\n"

/-! ## Histories -/

/-- One change of a client. -/
structure Change where
  before : Session
  cause : Cause
  after : Session

/-- A client makes a move that is possible if none is that it prefers. -/
def Makes (s : Session) (m : Move) (t : Session) : Prop :=
  ∃ preferred others, Move.order = preferred ++ m :: others ∧
    (∀ n ∈ preferred, s.perform? n = none) ∧ s.perform? m = some t

variable {s₀ s t : Session} {past : List Change}

/-- Everything that happened to a client that began as `s₀`, in order, and what it is now. -/
inductive Course (s₀ : Session) : List Change → Session → Prop where
  | nil : Course s₀ [] s₀
  | snoc {past : List Change} {s t : Session} {cause : Cause} (course : Course s₀ past s)
      (becomes : s.Becomes cause t) : Course s₀ (past ++ [⟨s, cause, t⟩]) t

namespace Course

/-- A course goes on where another ends. -/
theorem append {later : List Change} (first : Course s₀ past s) (second : Course s later t) :
    Course s₀ (past ++ later) t := by
  induction second with
  | nil => rw [List.append_nil]; exact first
  | snoc course becomes ih => rw [← List.append_assoc]; exact ih.snoc becomes

/-- A course ends where its last change leads to, and what comes before that is a course. -/
theorem split_concat {change : Change} (course : Course s₀ (past ++ [change]) s) :
    Course s₀ past change.before ∧ change.before.Becomes change.cause change.after ∧
      change.after = s := by
  generalize hh : past ++ [change] = h at course
  cases course with
  | nil => simp at hh
  | snoc course becomes =>
    obtain ⟨rfl, hlast⟩ := List.append_inj' hh rfl
    obtain rfl := List.singleton_inj.1 hlast
    exact ⟨course, becomes, rfl⟩

/-- A course may be cut at every change. -/
theorem split {change : Change} {later : List Change}
    (course : Course s₀ (past ++ change :: later) s) :
    Course s₀ past change.before ∧ change.before.Becomes change.cause change.after ∧
      Course change.after later s := by
  induction later using List.reverseRecOn generalizing s with
  | nil =>
    obtain ⟨hfirst, hbecomes, rfl⟩ := course.split_concat
    exact ⟨hfirst, hbecomes, .nil⟩
  | append_singleton later last ih =>
    rw [← List.cons_append, ← List.append_assoc] at course
    obtain ⟨hfirst, hlast, rfl⟩ := course.split_concat
    obtain ⟨hearlier, hbecomes, hlater⟩ := ih hfirst
    exact ⟨hearlier, hbecomes, hlater.snoc hlast⟩

/-- Every change of a course is one that a client can go through, after a course of its own. -/
theorem of_mem {change : Change} (course : Course s₀ past s) (mem : change ∈ past) :
    ∃ earlier, Course s₀ earlier change.before ∧ change.before.Becomes change.cause change.after := by
  obtain ⟨earlier, _, rfl⟩ := List.append_of_mem mem
  exact ⟨earlier, course.split.1, course.split.2.1⟩

/-- Every change of a course is one that a client can go through. -/
theorem becomes {change : Change} (course : Course s₀ past s) (mem : change ∈ past) :
    change.before.Becomes change.cause change.after :=
  (course.of_mem mem).choose_spec.2

/-- What every change keeps holds before each of them and at the end. -/
theorem keeps {P : Session → Prop} (course : Course s₀ past s) (first : P s₀)
    (step : ∀ c ∈ past, P c.before → c.before.Becomes c.cause c.after → P c.after) :
    (∀ c ∈ past, P c.before) ∧ P s := by
  induction course with
  | nil => exact ⟨by simp, first⟩
  | snoc course becomes ih =>
    obtain ⟨hall, hlast⟩ := ih fun c hc => step c (List.mem_append_left _ hc)
    refine ⟨fun c hc => ?_, step _ (List.mem_append_right _ (List.mem_singleton_self _)) hlast becomes⟩
    rcases List.mem_append.1 hc with hc | hc
    · exact hall c hc
    · obtain rfl := List.mem_singleton.1 hc
      exact hlast

/-- What holds after a change and is kept by every later one holds before each of them, and at the
end. -/
theorem since {P : Session → Prop} {change : Change} {later : List Change}
    (course : Course s₀ (past ++ change :: later) s) (first : P change.after)
    (keeps : ∀ {s t : Session} {cause : Cause}, s.Becomes cause t → P s → P t) :
    (∀ d ∈ later, P d.before) ∧ P s :=
  course.split.2.2.keeps first fun _ _ h becomes => keeps becomes h

end Course

/-- A call was taken into the queue. -/
def Entered (past : List Change) (place : Nat) : Prop :=
  ∃ change ∈ past, ∃ t, change.after.calls[place]? = some (.registered t .queued)

/-! ## Moves and rest -/

/-- The next state is that after the move that the client makes. -/
theorem next?_eq_some_iff : s.next? = some t ↔ ∃ m, s.Makes m t := by
  unfold next? Makes
  rw [List.findSome?_eq_some_iff]
  constructor
  · rintro ⟨preferred, m, others, heq, hm, hnone⟩
    exact ⟨m, preferred, others, heq, hnone, hm⟩
  · rintro ⟨m, preferred, others, heq, hnone, hm⟩
    exact ⟨preferred, m, others, heq, hm, hnone⟩

/-- At rest none of the moves that a client prefers is possible. -/
theorem perform?_of_mem_order (rest : s.next? = none) {m : Move} (hm : m ∈ Move.order) :
    s.perform? m = none :=
  List.findSome?_eq_none_iff.1 rest m hm

/-- If no reply can get to the registry, none is on its way. -/
theorem inFlight_of_resolve? (h : s.resolve? 0 = none) : s.inFlight = [] := by
  cases hflight : s.inFlight with
  | nil => rfl
  | cons x xs => simp [resolve?, hflight] at h

/-- At rest no reply is on its way. -/
theorem inFlight_of_rest (rest : s.next? = none) : s.inFlight = [] :=
  inFlight_of_resolve? (perform?_of_mem_order rest (m := .resolve 0) (by simp [Move.order]))

/-- At rest no call can do anything by a turn of its own. -/
theorem turn?_of_rest (rest : s.next? = none) (place : Nat) : s.turn? place = none := by
  have hnone {m : Move} (hm : m ∈ Move.order) := perform?_of_mem_order rest hm
  have hdeliver : s.deliver? = none := hnone (m := .deliver) (by simp [Move.order])
  cases hturn : s.turn? place with
  | none => rfl
  | some t =>
    cases turns_of_turn? hturn with
    | ends stands live grounds =>
      cases grounds with
      | settled settled => simp [settlement?_of_deliver?_eq_none hdeliver stands live] at settled
      | expired _ late =>
        have hexpire : s.expire? = none := hnone (m := .expire) (by simp [Move.order])
        have hlate := lt_deadline_of_expire?_eq_none hdeliver hexpire stands live
        omega
      | cutOff _ gone =>
        have hrefuse : s.refuse? = none := hnone (m := .refuse) (by simp [Move.order])
        exact absurd hrefuse (refuse?_ne_none hdeliver gone stands)
    | enters stands _ alive room =>
      have hrefill : s.refill? = none := hnone (m := .refill) (by simp [Move.order])
      exact absurd hrefill (refill?_ne_none hdeliver alive stands (length_lt_of_keepsRoom room))

/-- At rest nothing is possible at all. -/
theorem perform?_of_rest (rest : s.next? = none) (m : Move) : s.perform? m = none := by
  cases m with
  | turn place => exact turn?_of_rest rest place
  | resolve place => simp [perform?, resolve?, inFlight_of_rest rest]
  | deliver | expire | refuse | write | refill | read | leave | close =>
    exact perform?_of_mem_order rest (by simp [Move.order])

/-- At rest no call can take its settlement. -/
theorem deliver?_of_rest (rest : s.next? = none) : s.deliver? = none := perform?_of_rest rest .deliver

/-- A move that a client makes is possible. -/
theorem Makes.perform? {m : Move} (h : s.Makes m t) : s.perform? m = some t := by
  obtain ⟨_, _, _, _, hm⟩ := h
  exact hm

/-- A client makes a move only if it can make none of those that it prefers. -/
theorem Makes.preferred {m : Move} {front back : List Move} (h : s.Makes m t)
    (order : Move.order = front ++ m :: back) (first : m ∉ front) :
    ∀ n ∈ front, s.perform? n = none := by
  obtain ⟨preferred, others, heq, hnone, -⟩ := h
  rw [order] at heq
  rcases List.append_eq_append_iff.1 heq with ⟨mid, rfl, -⟩ | ⟨mid, rfl, hmid⟩
  · exact fun n hn => hnone n (List.mem_append_left _ hn)
  · -- What stands between is nothing, as the move is not among the first ones.
    cases mid with
    | nil => simpa using hnone
    | cons n mid =>
      obtain ⟨rfl, -⟩ := List.cons.inj hmid
      exact absurd (by simp) first

/-- A client that is left alone does not give single calls their turns. -/
theorem Makes.ne_turn {m : Move} (h : s.Makes m t) (place : Nat) : m ≠ .turn place := by
  rintro rfl
  obtain ⟨preferred, others, heq, -⟩ := h
  have hmem : Move.turn place ∈ Move.order := by rw [heq]; simp
  simp [Move.order] at hmem

/-! ## Commands -/

/-- A command leaves the replies on their way alone. -/
theorem inFlight_apply (s : Session) (c : Command) : (s.apply c).inFlight = s.inFlight := by
  have htouches := touches_apply s c
  generalize s.apply c = t at htouches
  cases htouches <;> rfl

/-- What was done to a client, in order. -/
def commandsOf (changes : List Change) : List Command :=
  changes.filterMap fun c =>
    match c.cause with
    | .command command => some command
    | .move _ => none

/-- What was done in one history and then in another was done in order. -/
theorem commandsOf_append (changes changes' : List Change) :
    commandsOf (changes ++ changes') = commandsOf changes ++ commandsOf changes' :=
  List.filterMap_append

/-- A command is done to a client after all that was done before. -/
theorem commandsOf_command (changes : List Change) (s t : Session) (c : Command) :
    commandsOf (changes ++ [⟨s, .command c, t⟩]) = commandsOf changes ++ [c] :=
  commandsOf_append changes _

/-- By a move nothing is done to it. -/
theorem commandsOf_move (changes : List Change) (s t : Session) (m : Move) :
    commandsOf (changes ++ [⟨s, .move m, t⟩]) = commandsOf changes :=
  (commandsOf_append changes _).trans (List.append_nil _)

/-! ## Moves alone -/

/-- What every move keeps holds when a client has made some. -/
theorem run_keeps {P : Session → Prop} (keeps : ∀ {s t m}, s.Makes m t → P s → P t) (fuel : Nat)
    (h : P s) : P (run fuel s) := by
  induction fuel generalizing s with
  | zero => exact h
  | succ fuel ih =>
    rw [run]
    cases hnext : s.next? with
    | none => exact h
    | some t =>
      obtain ⟨m, hmakes⟩ := next?_eq_some_iff.1 hnext
      exact ih (keeps hmakes h)

/-- A move takes no time, and how long a call waits does not change by it. -/
theorem timing_of_perform? {m : Move} (h : s.perform? m = some t) :
    t.clock = s.clock ∧ t.window = s.window := by
  cases touches_perform? h <;> exact ⟨rfl, rfl⟩

/-- A move takes no time. -/
theorem clock_of_perform? {m : Move} (h : s.perform? m = some t) : t.clock = s.clock :=
  (timing_of_perform? h).1

/-- A client takes no time to settle. -/
theorem clock_settle (s : Session) : s.settle.clock = s.clock := by
  refine run_keeps (P := fun t => t.clock = s.clock) (fun hmakes h => ?_) _ rfl
  obtain ⟨_, _, _, _, hm⟩ := hmakes
  rw [clock_of_perform? hm, h]

/-! ## What has happened -/

/-- A client that nothing has been done to is at rest. -/
theorem next?_fresh (u : Setup) : u.fresh.next? = none := rfl

/-- A client that settles does so by the moves that it prefers. -/
theorem course_run (fuel : Nat) (s : Session) :
    ∃ moves, Course s moves (run fuel s) ∧
      ∀ c ∈ moves, ∃ m, c.cause = .move m ∧ c.before.Makes m c.after := by
  induction fuel generalizing s with
  | zero => exact ⟨[], .nil, by simp⟩
  | succ fuel ih =>
    rw [Session.run]
    cases hnext : s.next? with
    | none => exact ⟨[], .nil, by simp⟩
    | some t =>
      obtain ⟨m, hmakes⟩ := next?_eq_some_iff.1 hnext
      obtain ⟨moves, hcourse, hmoves⟩ := ih t
      have hfirst : Course s [⟨s, .move m, t⟩] t := Course.nil.snoc hmakes.perform?
      exact ⟨_, hfirst.append hcourse, List.forall_mem_cons.2 ⟨⟨m, rfl, hmakes⟩, hmoves⟩⟩

/-- Commands that are given to a client are a course. -/
theorem course_commands (commands : List Command) (s : Session) :
    ∃ given, Course s given (commands.foldl apply s) ∧ ∀ c ∈ given, ∃ d, c.cause = .command d := by
  induction commands generalizing s with
  | nil => exact ⟨[], .nil, by simp⟩
  | cons c commands ih =>
    obtain ⟨given, hcourse, hgiven⟩ := ih (s.apply c)
    have hfirst : Course s [⟨s, .command c, s.apply c⟩] (s.apply c) := Course.nil.snoc rfl
    exact ⟨_, hfirst.append hcourse, List.forall_mem_cons.2 ⟨⟨c, rfl⟩, hgiven⟩⟩

/-- What a client becomes for a cause, if that is possible. -/
def become? (s : Session) : Cause → Option Session
  | .command c => some (s.apply c)
  | .move m => s.perform? m

/-- What a client becomes for some causes, one after another, is a course. -/
theorem course_causes (causes : List Cause) (h : causes.foldlM become? s = some t) :
    ∃ past, Course s past t ∧ past.map Change.cause = causes := by
  induction causes generalizing s with
  | nil =>
    obtain rfl := Option.some.inj h
    exact ⟨[], .nil, rfl⟩
  | cons cause causes ih =>
    obtain ⟨m, hfirst, hrest⟩ := Option.bind_eq_some_iff.1 h
    have hbecomes : s.Becomes cause m := by
      cases cause with
      | command c => exact (Option.some.inj hfirst).symm
      | move move => exact hfirst
    obtain ⟨past, course, hcauses⟩ := ih hrest
    have hcourse : Course s [⟨s, cause, m⟩] m := Course.nil.snoc hbecomes
    exact ⟨_, hcourse.append course, by simp [hcauses]⟩

/-- A step is a course, in which all commands are given before a reply is sent on its way. -/
theorem course_step_unhurried (s : Session) (commands : List Command) :
    ∃ h, Course s h (s.step commands) ∧
      ∀ c ∈ h, ∀ d, c.cause = .command d → c.before.inFlight = s.inFlight := by
  obtain ⟨given, hgiven, hcommands⟩ := course_commands commands s
  obtain ⟨moves, hmoves, hmakes⟩ := course_run (commands.foldl apply s).work (commands.foldl apply s)
  obtain ⟨hbefore, -⟩ := hgiven.keeps (P := fun t => t.inFlight = s.inFlight) rfl
    fun c hc h becomes => by
      obtain ⟨d, hd⟩ := hcommands c hc
      rw [hd] at becomes
      have heq : c.after = c.before.apply d := becomes
      rw [heq, inFlight_apply, h]
  refine ⟨_, hgiven.append hmoves, List.forall_mem_append.2 ⟨fun c hc _ _ => hbefore c hc, ?_⟩⟩
  intro c hc d hd
  obtain ⟨m, hm, -⟩ := hmakes c hc
  simp [hm] at hd

/-- A step is a course. -/
theorem course_step (s : Session) (commands : List Command) : ∃ h, Course s h (s.step commands) :=
  (course_step_unhurried s commands).imp fun _ h => h.1

/-- A client that is given commands and settles, again and again, goes through a course and is at rest. If
each change has a property in every step that begins at rest, each change of the course has it. -/
theorem exists_course_of_steps {Q : Change → Prop} (u : Setup)
    (step : ∀ (past : List Change) (s : Session), Course u.fresh past s → s.next? = none →
      ∀ commands, ∃ h, Course s h (s.step commands) ∧ ∀ c ∈ h, Q c) (steps : List (List Command)) :
    ∃ h, Course u.fresh h (steps.foldl Session.step u.fresh) ∧
      (steps.foldl Session.step u.fresh).next? = none ∧ ∀ c ∈ h, Q c := by
  induction steps using List.reverseRecOn with
  | nil => exact ⟨[], .nil, next?_fresh u, by simp⟩
  | append_singleton steps commands ih =>
    obtain ⟨h, hcourse, hrest, hall⟩ := ih
    obtain ⟨later, hlater, hall'⟩ := step h _ hcourse hrest commands
    rw [List.foldl_append]
    exact ⟨_, hcourse.append hlater, next?_step _ commands, List.forall_mem_append.2 ⟨hall, hall'⟩⟩

/-- A client that is given commands and settles, again and again, goes through a course and is at rest.
-/
theorem exists_course (u : Setup) (steps : List (List Command)) :
    ∃ h, Course u.fresh h (steps.foldl step u.fresh) ∧ (steps.foldl step u.fresh).next? = none := by
  obtain ⟨h, course, rest, -⟩ := exists_course_of_steps (Q := fun _ => True) u
    (fun _ s _ _ commands => (course_step s commands).imp fun _ h => ⟨h, fun _ _ => trivial⟩) steps
  exact ⟨h, course, rest⟩

end PipeCall.Session
