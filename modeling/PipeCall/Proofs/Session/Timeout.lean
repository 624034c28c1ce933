import PipeCall.Proofs.Session.Outcome

/-!
# How long a call waits before it times out

A client is given its timeout in nanoseconds and keeps the whole milliseconds of it
(`Course.window_eq`). A call takes what is kept when it is made (`Change.IssuesAt.takenAt`), and when
it times out just that much has passed (`Course.timedOut_after`). So the longest wait that a call is
sure of is not the timeout it was made under but the whole milliseconds of it (`waitsFor_iff`).
-/

namespace PipeCall

/-- The whole milliseconds of a span that fit 64 bits are no longer than it. -/
theorem Span.nanos_ofMillis_millis_le (T : Span) : (ofMillis T.millis).nanos ≤ T.nanos := by
  have hwhole : T.millis ≤ T.nanos / 1000000 := Nat.min_le_left _ _
  have hdrop := Nat.div_mul_le_self T.nanos 1000000
  exact (Nat.mul_le_mul_right 1000000 hwhole).trans hdrop

/-- A span is as long as its whole milliseconds that fit 64 bits exactly if it is such a number of
milliseconds. -/
theorem Span.le_ofMillis_millis_iff (T : Span) :
    T.nanos ≤ (ofMillis T.millis).nanos ↔ ∃ n < Decimal.wordLimit, T = ofMillis n := by
  constructor
  · intro hle
    have hsame : (ofMillis T.millis).nanos = T.nanos := Nat.le_antisymm T.nanos_ofMillis_millis_le hle
    have hfits : T.millis ≤ Decimal.wordLimit - 1 := Nat.min_le_right _ _
    have hword : 0 < Decimal.wordLimit := by decide
    exact ⟨T.millis, by omega, by cases T; simpa [ofMillis] using hsame.symm⟩
  · rintro ⟨n, hn, rfl⟩
    rw [millis_ofMillis hn]

namespace Session

variable {s t : Session} {past earlier later : List Change} {issue : Change} {u : Setup}
  {cause : Cause} {place : Nat}

/-! ## The timeout of a client -/

/-- The timeout of a client after a change for this cause. -/
def Cause.timeout (T : Span) : Cause → Span
  | .command (.setTimeout timeout) => timeout
  | _ => T

/-- The timeout that a client was given last: that of the last command to set one, or the one that it
was made with. -/
def timeoutAfter (u : Setup) (past : List Change) : Span :=
  past.foldl (fun T c => c.cause.timeout T) u.timeout

/-- A client that keeps the whole milliseconds of its timeout goes on to do so. -/
theorem Becomes.window_eq {T : Span} (h : s.Becomes cause t) (kept : s.window = T.millis) :
    t.window = (cause.timeout T).millis := by
  cases h.touches with
  | setTimeout => rfl
  | onInput sends => rcases sends with ⟨_, rfl⟩ | rfl | ⟨_, rfl⟩ <;> exact kept
  | onOutput takes => rcases takes with ⟨_, rfl⟩ | ⟨_, rfl⟩ | ⟨_, rfl⟩ | ⟨_, rfl⟩ <;> exact kept
  | _ => exact kept

/-- A client keeps the whole milliseconds of the timeout that it was given last. -/
theorem Course.window_eq (course : Course u.fresh past s) : s.window = (timeoutAfter u past).millis := by
  induction course with
  | nil => rfl
  | snoc course becomes ih =>
    rw [timeoutAfter, List.foldl_concat]
    exact becomes.window_eq ih

/-! ## The window of a call -/

/-- The call in a place, if it is registered, was made at a time with a window. -/
def TakenAt (time window place : Nat) (s : Session) : Prop :=
  ∃ call, s.calls[place]? = some call ∧ ∀ ticket phase, call = .registered ticket phase →
    ticket.issuedAt = time ∧ ticket.window = window

/-- A call that is made comes last. -/
theorem calls_issue (s : Session) (order : Order) :
    ∃ call, (s.issue order).calls = s.calls ++ [call] := by
  unfold issue
  split
  · dsimp only
    split
    · exact ⟨_, rfl⟩
    · unfold enqueue
      split
      · exact ⟨_, rfl⟩
      · split <;> exact ⟨_, rfl⟩
  · exact ⟨_, rfl⟩
  · exact ⟨_, rfl⟩

/-- A call takes the clock and the window that its client has when it is made. -/
theorem Change.IssuesAt.takenAt {order : Order} (h : issue.IssuesAt place order)
    (becomes : issue.before.Becomes issue.cause issue.after) :
    TakenAt issue.before.clock issue.before.window place issue.after := by
  obtain ⟨before, cause, after⟩ := issue
  obtain ⟨rfl, rfl⟩ : cause = .command (.issue order) ∧ place = before.calls.length := h
  obtain rfl : after = before.issue order := becomes
  obtain ⟨call, hcalls⟩ := calls_issue before order
  have hcall : (before.issue order).calls[before.calls.length]? = some call := by
    rw [hcalls, List.getElem?_concat_length]
  refine ⟨call, hcall, ?_⟩
  rintro ticket phase rfl
  have hchange := (effect_issue before order).callChange before.calls.length
  rw [hcall] at hchange
  rcases hchange.ticket with ⟨phase', hbefore⟩ | ⟨-, hissues⟩
  · simp at hbefore
  · exact ⟨(hissues (before.issue order)).issuedAt, (hissues (before.issue order)).window⟩

/-- A call keeps the clock and the window that it took. -/
theorem TakenAt.becomes {time window : Nat} (h : TakenAt time window place s)
    (becomes : s.Becomes cause t) : TakenAt time window place t := by
  obtain ⟨call, hcall, htaken⟩ := h
  have hchange := becomes.effect.callChange place
  rw [hcall] at hchange
  generalize hafter : t.calls[place]? = call? at hchange
  cases hchange with
  | kept => exact ⟨call, hafter, htaken⟩
  | queued | ended | abandoned =>
    obtain ⟨hissued, hwindow⟩ := htaken _ _ rfl
    refine ⟨_, hafter, ?_⟩
    rintro _ _ ⟨⟩
    exact ⟨hissued, hwindow⟩

/-- When a call times out its window has passed since it was made, whole. -/
theorem Course.timedOut_after {c : Change} {order : Order} {w : Span}
    (course : Course u.fresh (earlier ++ issue :: past ++ c :: later) s)
    (issues : issue.IssuesAt place order) (ends : c.Concludes place (.error (.timeout w))) :
    w = Span.ofMillis issue.before.window ∧
      issue.before.clock + issue.before.window ≤ c.before.clock := by
  obtain ⟨hcourse, hbecomes, -⟩ := course.split
  have htaken := (hcourse.since (P := TakenAt issue.before.clock issue.before.window place)
    (issues.takenAt hcourse.split.2.1) fun becomes h => h.becomes becomes).2
  obtain ⟨ticket, phase, _, issue', _, hstands, -, hissues, hw, hlate, -⟩ :=
    hcourse.justified hbecomes ends
  -- The call that times out is the one that was made, so it has that clock and that window.
  obtain ⟨call, hcall, htaken⟩ := htaken
  rw [hstands] at hcall
  obtain ⟨hissued, hwindow⟩ := htaken ticket phase (Option.some.inj hcall).symm
  rw [hissues.issuedAt] at hissued
  rw [hissues.window] at hwindow
  rw [← hissued, ← hwindow]
  exact ⟨hw, hlate⟩

/-! ## The wait that a call is sure of -/

/-- A call that is made under the timeout `T`, and times out, does so no earlier than the time `D` after
it was made. -/
def WaitsFor (T D : Span) : Prop :=
  ∀ (u : Setup) (earlier past later : List Change) (issue c : Change) (s : Session) (place : Nat)
    (order : Order) (w : Span),
    Course u.fresh (earlier ++ issue :: past ++ c :: later) s → timeoutAfter u earlier = T →
    issue.IssuesAt place order → c.Concludes place (.error (.timeout w)) →
    (Span.ofMillis issue.before.clock).nanos + D.nanos ≤ (Span.ofMillis c.before.clock).nanos

/-- A call waits for the whole milliseconds of its timeout. -/
theorem waitsFor_of_le {T D : Span} (h : D.nanos ≤ (Span.ofMillis T.millis).nanos) :
    WaitsFor T D := by
  intro u earlier past later issue c s place order w course under issues ends
  have hwindow := course.split.1.split.1.window_eq
  rw [under] at hwindow
  obtain ⟨-, hlate⟩ := course.timedOut_after issues ends
  simp only [Span.ofMillis] at h ⊢
  calc issue.before.clock * 1000000 + D.nanos
      ≤ issue.before.clock * 1000000 + T.millis * 1000000 := by omega
    _ = (issue.before.clock + issue.before.window) * 1000000 := by rw [hwindow, Nat.add_mul]
    _ ≤ c.before.clock * 1000000 := Nat.mul_le_mul_right _ hlate

/-- A client that is started, makes a call and lets the whole milliseconds of its timeout pass. -/
def overdue (T : Span) : Session :=
  [.start, .issue .sample, .advance T.millis].foldl apply (Setup.fresh { Setup.sample with timeout := T })

/-- The ticket of its call. -/
def overdueTicket (T : Span) : Ticket := ⟨⟨1, "ping", .object []⟩, .bool, 0, 0, T.millis⟩

/-- The call times out then. -/
theorem overdue_expires (T : Span) :
    ∃ t, (overdue T).Becomes (.move .expire) t ∧
      t.outcomeAt? 0 = some (.error (.timeout (Span.ofMillis T.millis))) := by
  have hcalls : (overdue T).calls = [.registered (overdueTicket T) .queued] := rfl
  have hclock : (overdue T).clock = T.millis := Nat.zero_add _
  have hdeliver : (overdue T).deliver? = none := rfl
  have hdue : (overdueTicket T).deadline ≤ (overdue T).clock := by
    rw [hclock]
    exact Nat.le_of_eq (Nat.zero_add _)
  have hexpire : (overdue T).expire? = some ((overdue T).conclude
      ⟨[], overdueTicket T, .queued, []⟩ (.error (.timeout (Span.ofMillis T.millis)))) := by
    simp only [expire?, hcalls, spot?, hdue, Phase.isLive, decide_true, Bool.and_self, if_true]
    rfl
  exact ⟨_, hexpire, rfl⟩

/-- Under every timeout there is a call that times out when the whole milliseconds of it have passed. -/
theorem exists_timesOut (T : Span) :
    ∃ u earlier past issue c s, Course u.fresh (earlier ++ issue :: past ++ c :: []) s ∧
      timeoutAfter u earlier = T ∧ issue.IssuesAt 0 .sample ∧
      c.Concludes 0 (.error (.timeout (Span.ofMillis T.millis))) ∧
      issue.before.clock = 0 ∧ c.before.clock = T.millis := by
  obtain ⟨t, becomes, out⟩ := overdue_expires T
  let u : Setup := { Setup.sample with timeout := T }
  let start : Change := ⟨u.fresh, .command .start, u.fresh.apply .start⟩
  let issue : Change := ⟨start.after, .command (.issue .sample), start.after.apply (.issue .sample)⟩
  let pass : Change := ⟨issue.after, .command (.advance T.millis), overdue T⟩
  have hstart : Course u.fresh [start] start.after := Course.nil.snoc rfl
  have hissue : Course u.fresh [start, issue] issue.after := hstart.snoc rfl
  have hpass : Course u.fresh [start, issue, pass] pass.after := hissue.snoc rfl
  exact ⟨u, [start], [pass], issue, _, t, hpass.snoc becomes, rfl, ⟨rfl, rfl⟩, ⟨rfl, out⟩, rfl,
    Nat.zero_add _⟩

/-- No call is sure to wait longer than the whole milliseconds of its timeout. -/
theorem WaitsFor.le {T D : Span} (h : WaitsFor T D) : D.nanos ≤ (Span.ofMillis T.millis).nanos := by
  obtain ⟨u, earlier, past, issue, c, s, course, under, issues, ends, hissue, hc⟩ := exists_timesOut T
  have hwait := h u earlier past [] issue c s 0 .sample _ course under issues ends
  rw [hissue, hc] at hwait
  simpa [Span.ofMillis] using hwait

/-- A call that is made under a timeout is sure to wait for the whole milliseconds of it, as many as
fit 64 bits, and for nothing longer. So it is sure to wait for the timeout itself only if that is a
whole number of milliseconds which fits. -/
theorem waitsFor_iff (T : Span) :
    (∀ D, WaitsFor T D ↔ D.nanos ≤ (Span.ofMillis T.millis).nanos) ∧
      (WaitsFor T T ↔ ∃ n < Decimal.wordLimit, T = Span.ofMillis n) := by
  have hall : ∀ D, WaitsFor T D ↔ D.nanos ≤ (Span.ofMillis T.millis).nanos := fun D =>
    ⟨WaitsFor.le, waitsFor_of_le⟩
  constructor
  · exact hall
  · exact (hall T).trans T.le_ofMillis_millis_iff

/-- A call that is made under a timeout of half a millisecond times out at once, so none is sure to
wait for that long. -/
theorem timeout_below_one_millisecond :
    let s := [[.start], [.setTimeout ⟨500000⟩], [.issue .sample]].foldl step Setup.sample.fresh
    s.clock = 0 ∧ s.outcomeAt? 0 = some (.error (.timeout ⟨0⟩)) ∧ ¬ WaitsFor ⟨500000⟩ ⟨500000⟩ := by
  refine ⟨rfl, rfl, fun waits => ?_⟩
  have hle := waits.le
  exact absurd hle (by decide)

end Session

end PipeCall
