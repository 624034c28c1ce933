import Mathlib.Data.List.Perm.Basic
import PipeCall.Proofs.CallId
import PipeCall.Proofs.Frame.Intake
import PipeCall.Proofs.Registry.Ledger
import PipeCall.Proofs.Session.Outstanding

/-!
# What the reader has taken is accounted for

Whatever the decoder hands to the reader has one account (`Account.ofResult`): it is a reply to a
call, or one of the other things that a frame can be, or it was refused. An account is settled by an
event (`Event.account?`); only a reply to a call is on its way to the registry for a while before
that. No change of a client loses an account or settles one twice (`Becomes.tells`), so in any
course the accounts of what the reader has taken are those that were settled and those of the
replies on their way (`Course.tells`). An account that is settled by a reply to a call which is
outstanding costs the registry one entry, and no other account costs it anything (`Arrives`).
-/

namespace PipeCall

/-- What a result of the decoder is to the reader. -/
inductive Account where
  /-- It is a reply to the call of this number. -/
  | reply (id : Nat)
  /-- It is a reply whose identifier names no call. -/
  | nobody (id : CallId)
  /-- It is a reply without an identifier. -/
  | unidentified (frame : Bytes)
  | notification (method : String)
  | malformed
  /-- It was refused by the decoder. -/
  | unreadable (fault : Fault)

/-- The account of a result. -/
def Account.ofResult : Except Fault Bytes → Account
  | .error fault => .unreadable fault
  | .ok frame =>
    match Inbound.parse frame with
    | .ok (.reply r) =>
      match r.id.key? with
      | some id => .reply id
      | none => .nobody r.id
    | .ok (.notification method) => .notification method
    | .error .missingId => .unidentified frame
    | .error _ => .malformed

namespace Event

/-- The account that an event settles. -/
def account? : Event → Option Account
  | .resolved id | .stray (.number id) => some (.reply id)
  | .stray (.text s) => some (.nobody (.text s))
  | .unidentified frame => some (.unidentified frame)
  | .notification method => some (.notification method)
  | .malformed => some .malformed
  | .unreadable fault => some (.unreadable fault)
  | _ => none

/-- Whether a reply has reached its call. -/
def isResolved : Event → Bool
  | .resolved _ => true
  | _ => false

/-- Whether the counterparty has sent a message of its own. -/
def isNotification : Event → Bool
  | .notification _ => true
  | _ => false

/-- The lines that are shown of settled accounts. -/
def warnings (noted : List Event) : List String :=
  (noted.filter fun e => e.account?.isSome).filterMap diagnostic?

/-- What is shown of a settled account is a warning. -/
theorem warning_of_account? {e : Event} {line : String} (h : e.account?.isSome = true)
    (hline : e.diagnostic? = some line) : ∃ text, line = "WARN " ++ text := by
  cases e with
  | stray id =>
    refine ⟨"No pending call for reply with id " ++ id.shown, ?_⟩
    rw [← Option.some.inj hline, ← String.append_assoc]
    rfl
  | unidentified frame =>
    refine ⟨"Dropping reply without id: " ++ Utf8.lossy frame, ?_⟩
    rw [← Option.some.inj hline, ← String.append_assoc]
    rfl
  | malformed =>
    refine ⟨"Failed to parse message: " ++ Fault.malformed.text, ?_⟩
    rw [← Option.some.inj hline, ← String.append_assoc]
    rfl
  | unreadable fault =>
    refine ⟨"Dropping unreadable message: " ++ fault.text, ?_⟩
    rw [← Option.some.inj hline, ← String.append_assoc]
    rfl
  | resolved | notification => simp [diagnostic?] at hline
  | _ => simp [account?] at h

@[simp] theorem warnings_append (noted later : List Event) :
    warnings (noted ++ later) = warnings noted ++ warnings later := by
  simp [warnings]

/-- An account is settled by a reply that reaches its call, by a notification, or by a warning. -/
theorem length_account (e : Event) :
    ([e].filterMap account?).length =
      [e].countP isResolved + [e].countP isNotification + (warnings [e]).length := by
  cases e with
  | stray id => cases id <;> rfl
  | _ => rfl

/-- Settled accounts are the replies that have reached their calls, the notifications and the
warnings. -/
theorem length_accounts (noted : List Event) :
    (noted.filterMap account?).length =
      noted.countP isResolved + noted.countP isNotification + (warnings noted).length := by
  induction noted with
  | nil => rfl
  | cons e noted ih =>
    have hone := length_account e
    rw [← List.singleton_append, List.filterMap_append, List.countP_append, List.countP_append,
      warnings_append, List.length_append, List.length_append]
    omega

end Event

namespace Session

variable {s t v : Session} {cause : Cause} {h : List Change}

/-! ## What the reader takes -/

/-- The result of the decoder that the reader takes in a change. -/
def Change.result? (c : Change) : Option (Except Fault Bytes) :=
  match c.cause with
  | .move .read =>
    if c.before.lifecycle = .shutDown then none else c.before.intake.decoder.next.1
  | _ => none

/-- The results that the reader takes in some changes, in order. -/
def results (h : List Change) : List (Except Fault Bytes) := h.filterMap Change.result?

/-- A result is taken by the reader, and is the decoder's. -/
theorem read_of_result? {c : Change} {r : Except Fault Bytes} (h : c.result? = some r) :
    c.cause = .move .read ∧ c.before.intake.decoder.next.1 = some r := by
  unfold Change.result? at h
  split at h
  · split at h
    · simp at h
    · exact ⟨‹_›, h⟩
  · simp at h

/-- The accounts of the replies on their way to the registry. -/
def onTheWay (s : Session) : List Account := s.inFlight.map fun x => .reply x.1

/-- Some results are taken and some events noted from one client to another, and every account is
settled or on its way. -/
structure Tells (s : Session) (taken : List (Except Fault Bytes)) (noted : List Event)
    (t : Session) : Prop where
  events : t.events = s.events ++ noted
  accounts : (noted.filterMap Event.account? ++ t.onTheWay).Perm
    (s.onTheWay ++ taken.map Account.ofResult)

open scoped List in
/-- What is taken later is accounted for after what is taken before. -/
theorem Tells.trans {taken later : List (Except Fault Bytes)} {noted after : List Event}
    (first : s.Tells taken noted t) (second : t.Tells later after v) :
    s.Tells (taken ++ later) (noted ++ after) v where
  events := by rw [second.events, first.events, List.append_assoc]
  accounts := by
    rw [List.filterMap_append, List.append_assoc, List.map_append, ← List.append_assoc s.onTheWay]
    calc noted.filterMap Event.account? ++ (after.filterMap Event.account? ++ v.onTheWay)
      _ ~ noted.filterMap Event.account? ++ (t.onTheWay ++ later.map Account.ofResult) :=
        second.accounts.append_left _
      _ = noted.filterMap Event.account? ++ t.onTheWay ++ later.map Account.ofResult :=
        (List.append_assoc _ _ _).symm
      _ ~ s.onTheWay ++ taken.map Account.ofResult ++ later.map Account.ofResult :=
        first.accounts.append_right _

/-! ## Changes that take nothing -/

/-- From one client to another nothing is noted that settles an account, and no reply comes or goes.
-/
structure Quiet (s t : Session) : Prop where
  inFlight : t.inFlight = s.inFlight
  events : ∃ noted, t.events = s.events ++ noted ∧ ∀ e ∈ noted, e.account? = none

/-- Nothing is noted. -/
theorem Quiet.of_eq (inFlight : t.inFlight = s.inFlight) (events : t.events = s.events) :
    s.Quiet t :=
  ⟨inFlight, [], by rw [events, List.append_nil], by simp⟩

/-- Nothing more is noted. -/
theorem Quiet.congr (quiet : s.Quiet t) (inFlight : v.inFlight = t.inFlight)
    (events : v.events = t.events) : s.Quiet v where
  inFlight := inFlight.trans quiet.inFlight
  events := by rw [events]; exact quiet.events

/-- Something else is noted. -/
theorem Quiet.note {e : Event} (quiet : s.Quiet t) (he : e.account? = none) :
    s.Quiet (t.note e) := by
  obtain ⟨noted, hevents, hnone⟩ := quiet.events
  refine ⟨quiet.inFlight, noted ++ [e], ?_, ?_⟩
  · rw [Session.note, hevents, List.append_assoc]
  · exact List.forall_mem_append.2 ⟨hnone, List.forall_mem_singleton.2 he⟩

/-- What is quiet takes nothing, and resolves no call. -/
theorem Quiet.tells (quiet : s.Quiet t) :
    ∃ noted, s.Tells [] noted t ∧ noted.countP Event.isResolved = 0 := by
  obtain ⟨noted, hevents, hnone⟩ := quiet.events
  refine ⟨noted, ⟨hevents, ?_⟩, ?_⟩
  · have hway : t.onTheWay = s.onTheWay := by rw [onTheWay, quiet.inFlight, onTheWay]
    rw [List.filterMap_eq_nil_iff.2 hnone, hway, List.nil_append, List.map_nil, List.append_nil]
  · rw [List.countP_eq_zero]
    intro e he
    have hno := hnone e he
    cases e with
    | resolved id => simp [Event.account?] at hno
    | _ => simp [Event.isResolved]

/-- A step of a shutdown is quiet. -/
theorem quiet_of_close? (quiet : v.Quiet s) (h : s.close? = some t) : v.Quiet t := by
  cases closes_of_close? h with
  | writerGone | readerGone => exact quiet.congr rfl rfl
  | writerOverdue | readerOverdue => exact Quiet.note (quiet.congr rfl rfl) rfl

/-- A step of the writer is quiet. -/
theorem quiet_of_write? (h : s.write? = some t) : s.Quiet t := by
  cases writes_of_write? h with
  | sent | left | takes | shuts => exact .of_eq rfl rfl
  | failed | passes => exact Quiet.note (.of_eq rfl rfl) rfl

/-- A command is quiet. -/
theorem quiet_of_command {c : Command} (h : s.Becomes (.command c) t) : s.Quiet t := by
  cases c with
  | start =>
    obtain rfl : t = s.apply .start := h
    unfold apply start
    cases s.lifecycle with
    | notStarted => exact Quiet.note (.of_eq rfl rfl) rfl
    | running | shutDown =>
      dsimp only
      unfold declineStreams
      split <;> exact .of_eq rfl rfl
  | shutDown =>
    obtain rfl : t = s.apply .shutDown := h
    by_cases running : s.lifecycle = .running
    · refine shutDown_keeps (P := s.Quiet) running ?_ quiet_of_close?
      exact Quiet.note (.of_eq rfl rfl) rfl
    · rw [shutDown_of_ne_running running]
      exact .of_eq rfl rfl
  | _ => cases h.touches <;> exact .of_eq rfl rfl

/-- The reader lets the input go quietly. -/
theorem quiet_of_leave? (h : s.leave? = some t) : s.Quiet t := by
  obtain ⟨-, -, rfl⟩ := leave?_eq_some h
  exact ⟨rfl, _, rfl, by split <;> simp [Event.account?]⟩

/-- Only the reader and the replies that get to the registry settle accounts. -/
theorem Becomes.quiet (h : s.Becomes cause t) (hread : cause ≠ .move .read)
    (hresolve : ∀ place, cause ≠ .move (.resolve place)) : s.Quiet t := by
  cases cause with
  | command c => exact quiet_of_command h
  | move m =>
    cases m with
    | write => exact quiet_of_write? h
    | read => exact absurd rfl hread
    | resolve place => exact absurd rfl (hresolve place)
    | leave => exact quiet_of_leave? h
    | close => exact quiet_of_close? (.of_eq rfl rfl) h
    | deliver | expire | refuse | refill | turn =>
      cases touches_perform? h <;> exact .of_eq rfl rfl

/-! ## What the reader does with a result -/

/-- A result whose account is settled at once is told of. -/
theorem tells_note {e : Event} {r : Except Fault Bytes} (inFlight : t.inFlight = s.inFlight)
    (events : t.events = s.events) (he : e.account? = some (.ofResult r)) :
    s.Tells [r] [e] (t.note e) where
  events := by rw [note, events]
  accounts := by
    have hway : (t.note e).onTheWay = s.onTheWay := by
      rw [onTheWay, onTheWay, ← inFlight]
      rfl
    rw [List.filterMap_cons_some he, hway]
    exact List.perm_append_comm

/-- An identifier that is there and names no call is a text. -/
theorem account?_stray {id : CallId} (hnone : id.key? = none) (hthere : id.isAbsent = false) :
    (Event.stray id).account? = some (.nobody id) := by
  cases id with
  | text s => rfl
  | number n =>
    have hzero : n ≠ 0 := beq_eq_false_iff_ne.1 hthere
    have hkey := CallId.key?_number_eq_some_iff.2 ⟨rfl, hzero⟩
    rw [hnone] at hkey
    simp at hkey

/-- The account of a frame is settled, or put on its way to the registry. -/
theorem tells_dispatch (s : Session) (body : Bytes) :
    ∃ noted, s.Tells [.ok body] noted (s.dispatch body) ∧ noted.countP Event.isResolved = 0 := by
  unfold dispatch
  cases hparse : Inbound.parse body with
  | error fault =>
    cases fault with
    | missingId =>
      have haccount : (Event.unidentified body).account? = some (.ofResult (.ok body)) := by
        simp only [Event.account?, Account.ofResult, hparse]
      exact ⟨_, tells_note rfl rfl haccount, rfl⟩
    | _ =>
      have haccount : Event.malformed.account? = some (.ofResult (.ok body)) := by
        simp only [Event.account?, Account.ofResult, hparse]
      exact ⟨_, tells_note rfl rfl haccount, rfl⟩
  | ok message =>
    cases message with
    | notification method =>
      have haccount : (Event.notification method).account? = some (.ofResult (.ok body)) := by
        simp only [Event.account?, Account.ofResult, hparse]
      exact ⟨_, tells_note rfl rfl haccount, rfl⟩
    | reply r =>
      cases hkey : r.id.key? with
      | none =>
        have haccount : (Event.stray r.id).account? = some (.ofResult (.ok body)) := by
          obtain ⟨hthere, -⟩ := Inbound.id_of_parse hparse
          simp only [account?_stray hkey hthere, Account.ofResult, hparse, hkey]
        simp only [hkey]
        exact ⟨_, tells_note rfl rfl haccount, rfl⟩
      | some id =>
        simp only [hkey]
        refine ⟨[], ⟨(List.append_nil _).symm, ?_⟩, rfl⟩
        have haccount : Account.ofResult (.ok body) = .reply id := by
          simp only [Account.ofResult, hparse, hkey]
        rw [List.map_singleton, haccount]
        unfold onTheWay
        rw [List.map_append]
        exact List.Perm.refl _

/-- A step of the reader takes the result of the decoder, if there is one. -/
theorem tells_read? (h : s.read? = some t) :
    ∃ noted, s.Tells (Change.result? ⟨s, .move .read, t⟩).toList noted t ∧
      noted.countP Event.isResolved = 0 := by
  -- What the reader may take is what the decoder gives in the pull.
  have hresult {p : Frame.Intake.Pulled} {intake : Frame.Intake} (may : s.MayTake)
      (hpull : s.intake.pull = (p, intake)) :
      Change.result? ⟨s, .move .read, t⟩ = p.result? := by
    unfold Change.result?
    simp only [if_neg may.goesOn]
    exact Frame.Intake.result?_of_pull hpull
  obtain ⟨-, hreads⟩ := reads_of_read? h
  cases hreads with
  | stops shut =>
    have hquiet : s.Quiet { s with reader := .leaving } := .of_eq rfl rfl
    unfold Change.result?
    simp only [if_pos shut]
    exact hquiet.tells
  | @frame body intake may hpull =>
    obtain ⟨noted, htells, hcount⟩ := tells_dispatch { s with intake } body
    rw [hresult may hpull]
    exact ⟨noted, ⟨htells.events, htells.accounts⟩, hcount⟩
  | refused may hpull =>
    rw [hresult may hpull]
    exact ⟨_, tells_note rfl rfl rfl, rfl⟩
  | @buffered intake may hpull =>
    have hquiet : s.Quiet { s with intake } := .of_eq rfl rfl
    rw [hresult may hpull]
    exact hquiet.tells
  | @failed fault intake may hpull =>
    have hquiet : s.Quiet { s with intake, reader := .leaving } := .of_eq rfl rfl
    rw [hresult may hpull]
    exact (hquiet.note (e := .inputFailed fault) rfl).tells
  | @ended leftover intake may hpull =>
    rw [hresult may hpull]
    refine Quiet.tells ⟨rfl, (leftover.map Event.truncated).toList ++ [.inputEnded], ?_, ?_⟩
    · rw [List.append_assoc]
    · cases leftover <;> simp [Event.account?]

/-! ## Replies that get to the registry -/

/-- What a reply to the call of this number does when it gets to the registry. -/
inductive Arrives (s : Session) (id : Nat) (t : Session) : Prop where
  /-- The call was outstanding, and its entry is the only one that is taken out. -/
  | found {slot : Nat} (taken : s.registry.entries.Perm ((id, slot) :: t.registry.entries))
    (noted : t.events = s.events ++ [.resolved id])
  /-- The call was not outstanding, and the registry stays as it is. -/
  | lost (absent : id ∉ s.registry.ids) (kept : t.registry = s.registry)
    (noted : t.events = s.events ++ [.stray (.number id)])

/-- The entries that a reply takes out of the registry. -/
def Change.removed (c : Change) : Nat :=
  match c.cause with
  | .move (.resolve _) => c.before.registry.size - c.after.registry.size
  | _ => 0

/-- The entries that replies take out of the registry in some changes. -/
def removed (h : List Change) : Nat := h.foldr (fun c sum => c.removed + sum) 0

/-- A reply that gets to the registry takes the entry of its call out, or nothing. -/
theorem arrives_of_resolve? {place : Nat} (hnodup : s.registry.ids.Nodup)
    (h : s.resolve? place = some t) :
    ∃ id reply, s.inFlight[place]? = some (id, reply) ∧
      t.inFlight = s.inFlight.eraseIdx place ∧ s.Arrives id t := by
  obtain ⟨id, reply, hplace, rfl⟩ := resolve?_eq_some h
  refine ⟨id, reply, hplace, rfl, ?_⟩
  rw [Registry.resolve_eq_expel]
  by_cases hmem : id ∈ s.registry.ids
  · obtain ⟨⟨id, slot⟩, hentry, rfl⟩ := List.mem_map.1 hmem
    rw [Registry.expel_found, if_pos (decide_eq_true hmem)]
    have htaken : s.registry.entries.Perm
        ((id, slot) :: (s.registry.expel id (Slot.deliver (.reply reply))).2.entries) := by
      rw [Registry.entries_expel]
      exact Registry.perm_remove hnodup hentry
    exact .found htaken rfl
  · rw [Registry.expel_of_none (Registry.slotOf?_eq_none_iff.2 hmem)]
    exact .lost hmem rfl rfl

/-- A reply that gets to the registry settles its account. -/
theorem tells_resolve? {place : Nat} (hnodup : s.registry.ids.Nodup)
    (h : s.resolve? place = some t) :
    ∃ noted, s.Tells [] noted t ∧
      Change.removed ⟨s, .move (.resolve place), t⟩ = noted.countP Event.isResolved := by
  obtain ⟨id, reply, hplace, hrest, harrives⟩ := arrives_of_resolve? hnodup h
  have hway : (Account.reply id :: t.onTheWay).Perm s.onTheWay := by
    obtain ⟨hlt, hget⟩ := List.getElem?_eq_some_iff.1 hplace
    have hperm := (List.getElem_cons_eraseIdx_perm hlt).map fun x : Nat × Reply => Account.reply x.1
    rw [hget, ← hrest] at hperm
    exact hperm
  cases harrives with
  | found taken noted =>
    have hsize : s.registry.size = t.registry.size + 1 := taken.length_eq
    refine ⟨_, ⟨noted, ?_⟩, ?_⟩
    · rw [List.map_nil, List.append_nil]
      exact hway
    · unfold Change.removed
      simp only [hsize, Nat.add_sub_cancel_left]
      rfl
  | lost absent kept noted =>
    refine ⟨_, ⟨noted, ?_⟩, ?_⟩
    · rw [List.map_nil, List.append_nil]
      exact hway
    · unfold Change.removed
      simp only [kept, Nat.sub_self]
      rfl

/-! ## Every change -/

/-- No change gives a call a second entry. -/
theorem Effect.nodup_ids (effect : Effect s cause t) (h : s.registry.ids.Nodup) :
    t.registry.ids.Nodup := by
  cases effect with
  | still _ registry _ | refused _ _ registry _ | unregistered _ _ _ registry _
  | letIn _ registry _ | queued _ _ registry _ =>
    rw [registry]
    exact h
  | admitted _ _ _ _ registered _ registry _ =>
    rw [registry]
    exact Registry.nodup_ids_of_register h registered
  | lost _ _ _ registered _ registry _ =>
    have hentered := Registry.nodup_ids_of_register h registered
    rw [registry]
    refine Registry.nodup_ids_of_sublist hentered ?_
    rw [Registry.entries_release, Registry.entries_cancel]
    exact List.filter_sublist
  | ended _ _ _ _ registry _ | abandoned _ _ _ registry _ =>
    rw [registry, unregister]
    refine Registry.nodup_ids_of_sublist h ?_
    rw [Registry.entries_release, Registry.entries_cancel]
    exact List.filter_sublist
  | resolved _ _ registry _ =>
    rw [registry]
    refine Registry.nodup_ids_of_sublist h ?_
    rw [Registry.entries_resolve]
    exact List.filter_sublist
  | drained _ _ registry _ =>
    rw [registry]
    exact List.nodup_nil

/-- A change settles the account of the result that it takes, or puts it on its way, and leaves the
other accounts as they are. -/
theorem Becomes.tells (h : s.Becomes cause t) (hnodup : s.registry.ids.Nodup) :
    ∃ noted, s.Tells (Change.result? ⟨s, cause, t⟩).toList noted t ∧
      Change.removed ⟨s, cause, t⟩ = noted.countP Event.isResolved := by
  by_cases hread : cause = .move .read
  · obtain rfl := hread
    obtain ⟨noted, htells, hcount⟩ := tells_read? h
    exact ⟨noted, htells, hcount.symm⟩
  · by_cases hresolve : ∃ place, cause = .move (.resolve place)
    · obtain ⟨place, rfl⟩ := hresolve
      exact tells_resolve? hnodup h
    · have hother : ∀ place, cause ≠ .move (.resolve place) := fun place heq =>
        hresolve ⟨place, heq⟩
      obtain ⟨noted, htells, hcount⟩ := (h.quiet hread hother).tells
      have hresult : Change.result? ⟨s, cause, t⟩ = none := by
        unfold Change.result?
        split
        · exact absurd ‹_› hread
        · rfl
      have hremoved : Change.removed ⟨s, cause, t⟩ = 0 := by
        unfold Change.removed
        split
        · exact absurd ‹_› (hother _)
        · rfl
      rw [hresult, hremoved]
      exact ⟨noted, htells, hcount.symm⟩

/-- The last change takes out what it takes out. -/
theorem removed_concat (h : List Change) (c : Change) : removed (h ++ [c]) = removed h + c.removed := by
  induction h with
  | nil => simp [removed]
  | cons d h ih =>
    simp only [removed, List.cons_append, List.foldr_cons] at ih ⊢
    omega

/-- The result that the last change takes comes last. -/
theorem results_concat (h : List Change) (c : Change) :
    results (h ++ [c]) = results h ++ c.result?.toList := by
  rw [results, results, List.filterMap_append]
  cases hresult : c.result? <;> simp [hresult]

/-- In a course everything that is taken is told of, and no call gets a second entry. -/
theorem Course.tells (course : Course s h t) (hnodup : s.registry.ids.Nodup) :
    t.registry.ids.Nodup ∧
      ∃ noted, s.Tells (results h) noted t ∧ removed h = noted.countP Event.isResolved := by
  induction course with
  | nil => exact ⟨hnodup, [], ⟨(List.append_nil _).symm, by simp [results]⟩, rfl⟩
  | @snoc h t v cause course becomes ih =>
    obtain ⟨hnodup', noted, htells, hcount⟩ := ih
    obtain ⟨later, hlater, hcounts⟩ := becomes.tells hnodup'
    refine ⟨becomes.effect.nodup_ids hnodup', noted ++ later, ?_, ?_⟩
    · rw [results_concat]
      exact htells.trans hlater
    · rw [removed_concat, List.countP_append, hcount, hcounts]

/-- What the reader has taken in a course, what was noted of it and what it did to the registry. -/
structure Accounts (s : Session) (h : List Change) (noted : List Event) (t : Session) : Prop where
  events : t.events = s.events ++ noted
  /-- Every result has one account, which was settled by one event or is that of a reply on its way,
  and no other account was settled. -/
  once : (noted.filterMap Event.account? ++ t.onTheWay).Perm
    (s.onTheWay ++ (results h).map Account.ofResult)
  /-- What is shown of the settled accounts are warnings. -/
  warned : ∀ line ∈ Event.warnings noted, ∃ text, line = "WARN " ++ text
  /-- The results, and the replies that were on their way at first, are as many as the entries taken
  out, the notifications, the warnings and the replies that are on their way at last. -/
  total : (results h).length + s.inFlight.length =
    removed h + noted.countP Event.isNotification + (Event.warnings noted).length +
      t.inFlight.length
  /-- What is not handed out as a frame was too long. -/
  oversized : ∀ fault, .error fault ∈ results h → ∃ size limit, fault = .oversized size limit
  /-- Taking a result changes nothing in the registry. -/
  taken : ∀ c ∈ h, c.result? ≠ none → c.after.registry = c.before.registry
  /-- A reply that gets to the registry takes out one entry, or changes nothing in the registry. -/
  arrived : ∀ c ∈ h, ∀ place, c.cause = .move (.resolve place) →
    ∃ id reply, c.before.inFlight[place]? = some (id, reply) ∧ c.before.Arrives id c.after
  /-- The reader waits for the replies on their way before it lets the input go. -/
  awaited : ∀ c ∈ h, c.cause = .move .leave → c.before.inFlight = []
  /-- At rest no reply is on its way. -/
  rest : t.next? = none → t.inFlight = []

/-- What the reader takes is accounted for once, whatever the registry holds at first, in whatever
order the replies get to it, and whatever else is done to the client meanwhile. -/
theorem accounts_of_course (course : Course s h t) (hnodup : s.registry.ids.Nodup) :
    ∃ noted, Accounts s h noted t := by
  obtain ⟨-, noted, htells, hcount⟩ := course.tells hnodup
  obtain ⟨hbefore, -⟩ := course.keeps (P := fun s => s.registry.ids.Nodup) hnodup
    fun c _ hc becomes => becomes.effect.nodup_ids hc
  refine ⟨noted, htells.events, htells.accounts, ?_, ?_, ?_, ?_, ?_, ?_, inFlight_of_rest⟩
  · intro line hline
    obtain ⟨e, he, hshown⟩ := List.mem_filterMap.1 hline
    obtain ⟨-, hsome⟩ := List.mem_filter.1 he
    exact Event.warning_of_account? hsome hshown
  · have hlength := htells.accounts.length_eq
    have hsettled := Event.length_accounts noted
    simp only [List.length_append, List.length_map, onTheWay] at hlength
    omega
  · intro fault hfault
    obtain ⟨c, -, hresult⟩ := List.mem_filterMap.1 hfault
    obtain ⟨-, hnext⟩ := read_of_result? hresult
    obtain ⟨size, hsize⟩ := Frame.Decoder.oversized_of_next (Prod.ext hnext rfl)
    exact ⟨size, _, hsize⟩
  · intro c hc hresult
    obtain ⟨r, hr⟩ := Option.ne_none_iff_exists'.1 hresult
    obtain ⟨hcause, -⟩ := read_of_result? hr
    have becomes := course.becomes hc
    rw [hcause] at becomes
    obtain ⟨_, _, _, _, heq⟩ := read?_frame becomes
    rw [heq]
  · intro c hc place hcause
    have becomes := course.becomes hc
    rw [hcause] at becomes
    obtain ⟨id, reply, hplace, -, harrives⟩ := arrives_of_resolve? (hbefore c hc) becomes
    exact ⟨id, reply, hplace, harrives⟩
  · intro c hc hcause
    have becomes := course.becomes hc
    rw [hcause] at becomes
    obtain ⟨-, hnone, -⟩ := leave?_eq_some becomes
    exact hnone

/-- A client makes a call and gets the reply, then a notification and a reply to nobody. -/
def threeFrames : List (List Command) :=
  [[.start], [.issue .sample], [.send sampleReply],
    [.send (Utf8.encode "\x7b\"method\":\"m\"\x7d\n\n\x7b\"id\":7\x7d\n\n")]]

/-- Each of the three frames has an event of its own. -/
theorem accounts_of_course_three_frames :
    ∃ h noted, Course Setup.sample.fresh h (threeFrames.foldl step Setup.sample.fresh) ∧
      Setup.sample.fresh.registry.ids.Nodup ∧
      Accounts Setup.sample.fresh h noted (threeFrames.foldl step Setup.sample.fresh) ∧
      noted = [.started, .resolved 1, .notification "m", .stray (.number 7)] := by
  obtain ⟨h, course, -⟩ := exists_course Setup.sample threeFrames
  obtain ⟨noted, haccounts⟩ := accounts_of_course course List.nodup_nil
  have hevents : (threeFrames.foldl step Setup.sample.fresh).events =
      [.started, .resolved 1, .notification "m", .stray (.number 7)] := by
    rfl
  exact ⟨h, noted, course, List.nodup_nil, haccounts, haccounts.events.symm.trans hevents⟩

end Session

end PipeCall
