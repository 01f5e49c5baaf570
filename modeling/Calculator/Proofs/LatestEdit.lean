/-
**The preview follows the latest edit.**

Values for the preview may be delivered late, twice or in any order, and edits may follow each other
faster than anything is evaluated.  What the preview does is nevertheless settled by what has been
seen of it: its past.  A ticket is accepted if it is that of the latest edit and nothing has been
cancelled since; a poll evaluates the text of the latest edit, once, when the entry has rested for
long enough; and the value shown is the one that was deposited last.

Two invariants carry this.  The first is about numbers: edits and cancellations take one number
each, so that a ticket given out earlier never has the number of a later one, even though a
cancellation uses up a number without a ticket.  The second is about the contents: the plan is that
of the edit that is still to be evaluated, under the ticket that is valid now, and therefore never
lost when it comes due.

Main definitions

* `Calculator.Preview.Issued`, `Calculator.Preview.latestTicket?` — the tickets that edits have
  been given, and the one that is still valid;
* `Calculator.Preview.pending?` — the edit that is still to be evaluated;
* `Calculator.Preview.deposited?` — the value that was deposited last;
* `Calculator.Preview.Course.Numbered`, `Calculator.Preview.Course.Follows` — the invariants.

Main results

* `Calculator.Preview.numbered_course`, `Calculator.Preview.follows_course` — every course keeps
  them;
* `Calculator.Preview.only_latest_edit_deposits` — only the ticket of the latest edit is accepted,
  and what is shown was deposited last;
* `Calculator.Preview.evaluates_exactly_when_rested` — a poll evaluates the latest edit, once, as
  soon as it is due.
-/

import Calculator.Preview.Event

set_option autoImplicit false

namespace Calculator.Preview

/-! ### What the past says -/

/-- Whether an event is an edit. -/
def Event.isEdit : Event → Bool
  | .edit .. => true
  | _ => false

/-- Whether an event takes a number: edits and cancellations do. -/
def Event.takesNumber : Event → Bool
  | .edit .. => true
  | .cancel => true
  | _ => false

/-- The ticket has been given to an edit. -/
def Issued (past : List Occurrence) (ticket : Ticket) : Prop :=
  ∃ text time, ⟨.edit text time, .issued ticket⟩ ∈ past

/-- The ticket of the latest edit, unless a cancellation has come after it. -/
def latestTicket? : List Occurrence → Option Ticket
  | [] => none
  | ⟨.edit .., .issued ticket⟩ :: _ => some ticket
  | ⟨.cancel, _⟩ :: _ => none
  | _ :: earlier => latestTicket? earlier

/-- The text and the time of the latest edit, unless it has been cancelled or evaluated since. -/
def pending? : List Occurrence → Option (String × Nat)
  | [] => none
  | ⟨.edit text time, _⟩ :: _ => some (text, time)
  | ⟨.cancel, _⟩ :: _ => none
  | ⟨.poll _, .polled true⟩ :: _ => none
  | _ :: earlier => pending? earlier

/-- The value that was deposited last, by a delivery that was accepted or by an evaluation; none if
an edit or a cancellation has come after it. -/
def deposited? : List Occurrence → Option Float
  | [] => none
  | ⟨.edit .., _⟩ :: _ => none
  | ⟨.cancel, _⟩ :: _ => none
  | ⟨.deliver _ value, .delivered true⟩ :: _ => value
  | ⟨.poll _, .polled true⟩ :: earlier =>
      (pending? earlier).bind fun (text, _) => (evaluateText text).toOption
  | _ :: earlier => deposited? earlier

/-! ### Tickets -/

section Tickets

variable {past : List Occurrence} {ticket ticket' : Ticket}

theorem issued_cons_edit {text : String} {time : Nat} :
    Issued (⟨.edit text time, .issued ticket'⟩ :: past) ticket ↔
      ticket = ticket' ∨ Issued past ticket := by
  simp only [Issued, List.mem_cons, Occurrence.mk.injEq, Event.edit.injEq, Report.issued.injEq]
  constructor
  · rintro ⟨text, time, ⟨-, h⟩ | h⟩
    · exact .inl h
    · exact .inr ⟨text, time, h⟩
  · rintro (rfl | ⟨text, time, h⟩)
    · exact ⟨_, _, .inl ⟨⟨rfl, rfl⟩, rfl⟩⟩
    · exact ⟨text, time, .inr h⟩

theorem issued_cons_of_isEdit {o : Occurrence} (h : o.event.isEdit = false) :
    Issued (o :: past) ticket ↔ Issued past ticket := by
  have hne (text : String) (time : Nat) : ⟨.edit text time, .issued ticket⟩ ≠ o := by
    rintro rfl
    cases h
  simp [Issued, hne]

end Tickets

@[simp] theorem generation_deliver (p : Preview) (ticket : Ticket) (value : Option Float) :
    (p.deliver ticket value).1.generation = p.generation := by
  unfold deliver
  split <;> rfl

@[simp] theorem generation_poll (p : Preview) (now : Nat) :
    (p.poll now).1.generation = p.generation := by
  unfold poll
  split
  · split
    · exact generation_deliver _ _ _
    · rfl
  · rfl

/-- Numbers are given out one after the other, and the number of a ticket tells whether anything
has come after its edit. -/
structure Course.Numbered (c : Course) : Prop where
  /-- Each edit and each cancellation has taken a number. -/
  generation : c.preview.generation = c.past.countP (·.event.takesNumber)
  /-- No ticket is from the future. -/
  number_le : ∀ ticket, Issued c.past ticket → ticket.number ≤ c.preview.generation
  /-- The ticket with the last number is that of the latest edit. -/
  latest : ∀ ticket, Issued c.past ticket →
    (latestTicket? c.past = some ticket ↔ ticket = c.preview.current)

namespace Course

variable {c : Course} {delay : Nat}

/-- The new number is that of no earlier ticket. -/
theorem Numbered.ne_next (h : c.Numbered) {ticket : Ticket} (hticket : Issued c.past ticket) :
    ticket ≠ ⟨c.preview.generation + 1⟩ := by
  rintro rfl
  exact absurd (h.number_le _ hticket) (Nat.not_succ_le_self _)

theorem Numbered.edit (h : c.Numbered) (text : String) (now : Nat) :
    (c.next (.edit text now)).Numbered := by
  constructor
  · simp only [next, step, Preview.edit, List.countP_cons, h.generation]
    rfl
  · intro ticket hticket
    rcases issued_cons_edit.1 hticket with rfl | hearlier
    · exact Nat.le_refl _
    · exact Nat.le_succ_of_le (h.number_le ticket hearlier)
  · intro ticket hticket
    change some (⟨c.preview.generation + 1⟩ : Ticket) = some ticket ↔
      ticket = ⟨c.preview.generation + 1⟩
    rw [Option.some_inj, eq_comm]

theorem Numbered.cancel (h : c.Numbered) : (c.next .cancel).Numbered := by
  constructor
  · simp only [next, step, Preview.cancel, List.countP_cons, h.generation]
    rfl
  · intro ticket hticket
    exact Nat.le_succ_of_le (h.number_le ticket ((issued_cons_of_isEdit rfl).1 hticket))
  · intro ticket hticket
    -- the cancellation has taken a number that no edit has
    have hne := h.ne_next ((issued_cons_of_isEdit rfl).1 hticket)
    exact iff_of_false (by simp [next, latestTicket?]) hne

/-- An event that takes no number leaves the numbers alone. -/
theorem Numbered.of_same (h : c.Numbered) {e : Event} (htakes : e.takesNumber = false)
    (hsame : (c.preview.step e).1.generation = c.preview.generation) : (c.next e).Numbered := by
  have hedit : e.isEdit = false := by cases e <;> first | rfl | cases htakes
  have hcurrent : (c.next e).preview.current = c.preview.current := congrArg Ticket.mk hsame
  have hlatest : latestTicket? (c.next e).past = latestTicket? c.past := by
    cases e with
    | edit | cancel => cases htakes
    | poll | deliver => rfl
  constructor
  · simp only [next, List.countP_cons, htakes, hsame, h.generation]
    rfl
  · intro ticket hticket
    have hearlier := (issued_cons_of_isEdit hedit).1 hticket
    exact hsame ▸ h.number_le ticket hearlier
  · intro ticket hticket
    have hearlier := (issued_cons_of_isEdit hedit).1 hticket
    rw [hcurrent, hlatest]
    exact h.latest ticket hearlier

theorem Numbered.next (h : c.Numbered) (e : Event) : (c.next e).Numbered := by
  cases e with
  | edit text now => exact h.edit text now
  | cancel => exact h.cancel
  | poll now => exact h.of_same rfl (generation_poll _ _)
  | deliver ticket value => exact h.of_same rfl (generation_deliver _ _ _)

end Course

theorem numbered_course (delay : Nat) (events : List Event) : (course delay events).Numbered := by
  refine course_induction ?_ (fun c e h => h.next e) events
  exact ⟨rfl, by simp [Issued], by simp [Issued]⟩

/-! ### Plans and values -/

/-- The preview holds what its past says. -/
structure Course.Follows (delay : Nat) (c : Course) : Prop where
  delay_eq : c.preview.delay = delay
  /-- What is planned is the edit that is still to be evaluated, under the ticket that is valid. -/
  plan : c.preview.plan =
    (pending? c.past).map fun (text, time) => ⟨c.preview.current, time + delay, text⟩
  /-- What is shown was deposited last. -/
  value : c.preview.value = deposited? c.past

namespace Course

variable {c : Course} {delay now : Nat}

/-- An edit that is due is evaluated. -/
theorem Follows.poll_of_due (h : c.Follows delay) {text : String} {time : Nat}
    (hpending : pending? c.past = some (text, time)) (hdue : time + delay ≤ now) :
    c.preview.poll now =
      ({ c.preview with plan := none, value := (evaluateText text).toOption }, true) := by
  have hplan := h.plan
  rw [hpending] at hplan
  exact Preview.poll_of_due hplan rfl hdue

/-- Where no edit is due, nothing happens. -/
theorem Follows.poll_of_not_due (h : c.Follows delay)
    (hnot : ¬ ∃ text time, pending? c.past = some (text, time) ∧ time + delay ≤ now) :
    c.preview.poll now = (c.preview, false) := by
  have hplan := h.plan
  cases hpending : pending? c.past with
  | none =>
      rw [hpending] at hplan
      exact Preview.poll_of_no_plan hplan now
  | some edit =>
      rw [hpending] at hplan
      have hearly : now < edit.2 + delay :=
        Nat.lt_of_not_le fun hle => hnot ⟨edit.1, edit.2, hpending, hle⟩
      exact Preview.poll_of_not_due hplan hearly

theorem Follows.poll_of_pending_none (h : c.Follows delay) (hnone : pending? c.past = none)
    (now : Nat) : c.preview.poll now = (c.preview, false) := by
  refine h.poll_of_not_due ?_
  rintro ⟨text, time, hsome, -⟩
  cases hnone.symm.trans hsome

/-- A poll evaluates something if an edit is due. -/
theorem Follows.poll_snd_iff (h : c.Follows delay) (now : Nat) :
    (c.preview.poll now).2 = true ↔
      ∃ text time, pending? c.past = some (text, time) ∧ time + delay ≤ now := by
  by_cases hdue : ∃ text time, pending? c.past = some (text, time) ∧ time + delay ≤ now
  · obtain ⟨text, time, hpending, hle⟩ := hdue
    rw [h.poll_of_due hpending hle]
    exact iff_of_true rfl ⟨text, time, hpending, hle⟩
  · rw [h.poll_of_not_due hdue]
    exact iff_of_false Bool.false_ne_true hdue

theorem Follows.poll (h : c.Follows delay) (now : Nat) : (c.next (.poll now)).Follows delay := by
  by_cases hdue : ∃ text time, pending? c.past = some (text, time) ∧ time + delay ≤ now
  · obtain ⟨text, time, hpending, hle⟩ := hdue
    have hnext : c.next (.poll now) =
        ⟨{ c.preview with plan := none, value := (evaluateText text).toOption },
          ⟨.poll now, .polled true⟩ :: c.past⟩ := by
      simp only [next, step, h.poll_of_due hpending hle]
    rw [hnext]
    refine ⟨h.delay_eq, rfl, ?_⟩
    simp only [deposited?, hpending]
    rfl
  · have hnext : c.next (.poll now) = ⟨c.preview, ⟨.poll now, .polled false⟩ :: c.past⟩ := by
      simp only [next, step, h.poll_of_not_due hdue]
    rw [hnext]
    exact ⟨h.delay_eq, h.plan, h.value⟩

theorem Follows.deliver (h : c.Follows delay) (ticket : Ticket) (value : Option Float) :
    (c.next (.deliver ticket value)).Follows delay := by
  by_cases hticket : ticket = c.preview.current
  · have hnext : c.next (.deliver ticket value) =
        ⟨{ c.preview with value }, ⟨.deliver ticket value, .delivered true⟩ :: c.past⟩ := by
      simp only [next, step, hticket, deliver_current]
    rw [hnext]
    exact ⟨h.delay_eq, h.plan, rfl⟩
  · have hnext : c.next (.deliver ticket value) =
        ⟨c.preview, ⟨.deliver ticket value, .delivered false⟩ :: c.past⟩ := by
      simp only [next, step, deliver_of_stale hticket]
    rw [hnext]
    exact ⟨h.delay_eq, h.plan, h.value⟩

theorem Follows.next (h : c.Follows delay) (e : Event) : (c.next e).Follows delay := by
  cases e with
  | edit text now =>
      refine ⟨h.delay_eq, ?_, rfl⟩
      rw [← h.delay_eq]
      rfl
  | cancel => exact ⟨h.delay_eq, rfl, rfl⟩
  | poll now => exact h.poll now
  | deliver ticket value => exact h.deliver ticket value

/-- Until the next edit nothing is waiting to be evaluated if nothing is now. -/
theorem pending?_foldl_next (later : List Event) (hpending : pending? c.past = none)
    (hlater : ∀ e ∈ later, e.isEdit = false) : pending? (later.foldl next c).past = none := by
  induction later generalizing c with
  | nil => exact hpending
  | cons e later ih =>
      obtain ⟨hedit, hlater⟩ := List.forall_mem_cons.1 hlater
      refine ih ?_ hlater
      cases e with
      | edit => cases hedit
      | cancel => rfl
      | deliver => exact hpending
      | poll now =>
          cases hpoll : (c.preview.poll now).2 with
          | true => simp only [next, step, hpoll, pending?]
          | false => simp only [next, step, hpoll, pending?, hpending]

end Course

theorem follows_course (delay : Nat) (events : List Event) :
    (course delay events).Follows delay :=
  course_induction ⟨rfl, rfl, rfl⟩ (fun _ e h => h.next e) events

/-! ### Deliveries and polls -/

/-- **Only the latest edit can deposit a value.**  Whatever has happened to a preview, a value that
is delivered under the ticket of one of its edits is accepted, and shown, exactly if this edit is
the latest and nothing has been cancelled since; otherwise nothing changes.  What is shown is the
value that was deposited last since the latest edit or cancellation.  The numbers count the edits
and cancellations, so they fit into 64 bits as long as the count does. -/
theorem only_latest_edit_deposits (delay : Nat) (events : List Event) :
    let p := (course delay events).preview
    let past := (course delay events).past
    (∀ ticket, Issued past ticket → ∀ value : Option Float,
      p.deliver ticket value =
        if latestTicket? past = some ticket then ({ p with value }, true) else (p, false)) ∧
    p.value = deposited? past ∧
    p.generation = past.countP (·.event.takesNumber) := by
  intro p past
  have hnumbered : (course delay events).Numbered := numbered_course delay events
  refine ⟨?_, (follows_course delay events).value, hnumbered.generation⟩
  intro ticket hticket value
  have hlatest : latestTicket? past = some ticket ↔ ticket = p.current :=
    hnumbered.latest ticket hticket
  simp only [deliver, hlatest]

/-- A value that comes late for the first of two edits is refused after one for the second. -/
theorem only_latest_edit_deposits_late :
    let events : List Event := [.edit "1+1" 0, .edit "10+10" 50, .deliver ⟨2⟩ (some 20)]
    let p := (course 300 events).preview
    let past := (course 300 events).past
    Issued past ⟨1⟩ ∧ latestTicket? past = some ⟨2⟩ ∧ p.value = some 20 ∧
      p.deliver ⟨1⟩ (some 2) = (p, false) := by
  intro events p past
  have hissued : Issued past ⟨1⟩ := ⟨"1+1", 0, .tail _ (.tail _ (.head _))⟩
  obtain ⟨hdeliver, hvalue, -⟩ := only_latest_edit_deposits 300 events
  exact ⟨hissued, rfl, hvalue, hdeliver ⟨1⟩ hissued (some 2)⟩

/-- **A poll evaluates the latest edit exactly when it has rested.**  Whatever has happened to a
preview, a poll evaluates something exactly if the latest edit has been neither cancelled nor
evaluated and is at least as old as the delay.  It evaluates the text of this edit then, shows its
value or none, and leaves nothing planned; otherwise nothing changes.  After it no poll evaluates
anything until the next edit. -/
theorem evaluates_exactly_when_rested (delay : Nat) (events : List Event) (now : Nat) :
    let p := (course delay events).preview
    let past := (course delay events).past
    ((p.poll now).2 = true ↔
      ∃ text time, pending? past = some (text, time) ∧ time + delay ≤ now) ∧
    (∀ text time, pending? past = some (text, time) → time + delay ≤ now →
      (p.poll now).1.value = (evaluateText text).toOption ∧ (p.poll now).1.due? = none) ∧
    ((p.poll now).2 = false → (p.poll now).1 = p) ∧
    ((p.poll now).2 = true → ∀ later : List Event, (∀ e ∈ later, e.isEdit = false) → ∀ now',
      ((course delay (events ++ .poll now :: later)).preview.poll now').2 = false) := by
  intro p past
  have hfollows : (course delay events).Follows delay := follows_course delay events
  refine ⟨hfollows.poll_snd_iff now, ?_, ?_, ?_⟩
  · intro text time hpending hdue
    have hpoll : p.poll now = _ := hfollows.poll_of_due hpending hdue
    rw [hpoll]
    exact ⟨rfl, rfl⟩
  · intro hpoll
    have hidle : p.poll now = (p, false) := hfollows.poll_of_not_due fun hdue => by
      simp [(hfollows.poll_snd_iff now).2 hdue, p] at hpoll
    rw [hidle]
  · intro hpoll later hlater now'
    have hpending : pending? ((course delay events).next (.poll now)).past = none := by
      have hreport : ((course delay events).preview.poll now).2 = true := hpoll
      simp only [Course.next, step, hreport, pending?]
    have hcourse : course delay (events ++ .poll now :: later) =
        later.foldl Course.next ((course delay events).next (.poll now)) := by
      rw [course_append, List.foldl_cons]
    have hlast : pending? (course delay (events ++ .poll now :: later)).past = none := by
      rw [hcourse]
      exact Course.pending?_foldl_next later hpending hlater
    rw [(follows_course delay _).poll_of_pending_none hlast]

/-- Of three edits in a row only the last is evaluated, once it has rested, and only once. -/
theorem evaluates_exactly_when_rested_third :
    let events : List Event := [.edit "2" 0, .edit "2+" 200, .edit "2+4" 400, .poll 350]
    let p := (course 300 events).preview
    let past := (course 300 events).past
    pending? past = some ("2+4", 400) ∧ (p.poll 700).2 = true ∧ (p.poll 700).1.value = some 6 ∧
      (p.poll 699).1 = p ∧
      ((course 300 (events ++ [.poll 700, .cancel])).preview.poll 2000).2 = false := by
  intro events p past
  have hpending : pending? past = some ("2+4", 400) := by decide +kernel
  have hvalue : (evaluateText "2+4").toOption = some 6 := by decide +kernel
  obtain ⟨hevaluates, hshown, -, honce⟩ := evaluates_exactly_when_rested 300 events 700
  obtain ⟨-, -, hidle, -⟩ := evaluates_exactly_when_rested 300 events 699
  have hpoll : (p.poll 700).2 = true := hevaluates.2 ⟨"2+4", 400, hpending, by decide⟩
  have hlater : ∀ e ∈ [Event.cancel], e.isEdit = false := by simp [Event.isEdit]
  refine ⟨hpending, hpoll, ?_, hidle (by decide +kernel), honce hpoll _ hlater 2000⟩
  rw [← hvalue]
  exact (hshown "2+4" 400 hpending (by decide)).1

end Calculator.Preview
