/-
**A screen that is never stale.**

The screen adds nothing to what can happen to a session.  Whatever a user does comes to a few
actions, and so does drawing; the entry is typed over only while input is allowed, since the entry
field takes no input otherwise.  So what is true of every session that is used this way is true of
the session on the screen: no failure stands beside a request, and the preview belongs to the entry.

From this it follows what can be read on the screen.  The labels around the pad start with different
characters, so that a label tells by its text what it shows: a request, a preview or a failure.  And
drawing once more changes nothing, because a drawing leaves no preview that is due and no answer
that has arrived.

Main definitions

* `Calculator.Session.LeadsTo` — actions lead from one session to another, without typing over a
  locked entry;
* `Calculator.Session.Idle` — nothing is due and no answer has arrived.

Main results

* `Calculator.Screen.refresh_refresh` — drawing twice is drawing once;
* `Calculator.Screen.leadsTo_step`, `Calculator.Screen.leadsTo_run` — gestures are actions;
* `Calculator.Screen.busy_mem_items`, `Calculator.Screen.preview_mem_items`,
  `Calculator.Screen.failure_mem_items` — what a label shows;
* `Calculator.Screen.clickLine_of_mem` — clicking a line of the history puts its expression back;
* `Calculator.Screen.screen_never_stale` — what this means for every screen.
-/

import Calculator.Proofs.FailedEntry
import Calculator.Proofs.PreviewOfEntry
import Calculator.Screen

set_option autoImplicit false

namespace Calculator

/-! ### Nothing is left to draw -/

/-- After a poll nothing is due. -/
theorem Preview.lt_due_of_poll {p : Preview} {now : Nat} {plan : Preview.Plan}
    (h : (p.poll now).1.plan = some plan) : now < plan.due := by
  unfold Preview.poll at h
  split at h
  · rename_i planned hplanned
    split at h
    · unfold Preview.deliver at h
      split at h <;> cases h
    · rename_i hdue
      cases hplanned.symm.trans h
      exact Nat.not_le.1 hdue
  · rename_i hnone
    cases hnone.symm.trans h

namespace Session

/-- Nothing is due, and no answer has arrived. -/
structure Idle (s : Session) : Prop where
  plan : ∀ plan, s.preview.plan = some plan → s.clock < plan.due
  answer : ∀ r, s.request = some r → r.answer.reply? = none

variable {s s' s'' : Session} {a : Action}

/-- Polling an idle session changes nothing. -/
theorem Idle.poll (h : s.Idle) : s.poll = (s, false) := by
  have hpreview : s.preview.poll s.clock = (s.preview, false) := by
    cases hplan : s.preview.plan with
    | none => exact Preview.poll_of_no_plan hplan s.clock
    | some plan => exact Preview.poll_of_not_due hplan (h.plan plan hplan)
  have hcollect : s.collect = (s, false) := by
    cases s.collects with
    | nothing _ hs => exact hs
    | ended r reply hr hreply _ => simp [h.answer r hr] at hreply
  rw [Session.poll, hpreview]
  dsimp only
  rw [hcollect]
  rfl

/-- Ending a calculation plans nothing and asks nobody. -/
theorem Idle.finish (h : s.Idle) (expression : String) (r : Except Failure Float) :
    (s.finish expression r).Idle := by
  cases r with
  | ok v => exact ⟨nofun, h.answer⟩
  | error e => exact ⟨h.plan, h.answer⟩

/-- A poll leaves an idle session. -/
theorem idle_poll (s : Session) : s.poll.1.Idle := by
  have hplan : ∀ plan, s.previewed.preview.plan = some plan → s.clock < plan.due :=
    fun _ h => Preview.lt_due_of_poll h
  rw [poll_fst]
  cases s.previewed.collects with
  | nothing hnothing hs =>
      rw [hs]
      exact ⟨hplan, hnothing⟩
  | ended r reply _ _ hs =>
      have hended : ({ s.previewed with request := none } : Session).Idle := ⟨hplan, nofun⟩
      rw [hs]
      exact hended.finish _ _

/-! ### Actions that the screen allows -/

/-- Actions lead from one session to the other, and none of them types over a locked entry. -/
def LeadsTo (s s' : Session) : Prop :=
  ∃ actions, s' = s.run actions ∧ ∀ m ∈ s.trace actions, m.typesLocked = false

theorem LeadsTo.refl (s : Session) : s.LeadsTo s := by
  refine ⟨[], rfl, ?_⟩
  intro m hm
  cases hm

theorem LeadsTo.trans (h : s.LeadsTo s') (h' : s'.LeadsTo s'') : s.LeadsTo s'' := by
  obtain ⟨first, rfl, hfirst⟩ := h
  obtain ⟨second, rfl, hsecond⟩ := h'
  refine ⟨first ++ second, (run_append s first second).symm, ?_⟩
  rw [trace_append]
  exact List.forall_mem_append.2 ⟨hfirst, hsecond⟩

theorem leadsTo_step (h : (⟨s, a⟩ : Moment).typesLocked = false) : s.LeadsTo (s.step a).1 := by
  refine ⟨[a], rfl, ?_⟩
  intro m hm
  rw [List.mem_singleton.1 hm]
  exact h

/-- What is true of every session in use is true of those that the screen leads to. -/
theorem LeadsTo.of_new {P : Session → Prop} {settings : Settings} {hasService : Bool}
    (h : (new settings hasService).LeadsTo s)
    (hrun : ∀ actions, P ((new settings hasService).run actions)) : P s := by
  obtain ⟨actions, rfl, -⟩ := h
  exact hrun actions

end Session

namespace Screen

variable {v : Screen}

/-- Drawing twice is drawing once. -/
theorem refresh_refresh (v : Screen) : v.refresh.refresh = v.refresh := by
  have hidle : ({ v.session.poll.1 with wantsFocus := false } : Session).Idle :=
    ⟨v.session.idle_poll.plan, v.session.idle_poll.answer⟩
  simp only [refresh, hidle.poll, Bool.or_false]

/-! ### What is shown -/

/-- What an item of the screen can be. -/
inductive Shows (v : Screen) (item : Item) : Prop
  | title (hitem : item = .label "Calculatrice")
  | entry (hitem : item = entryItem v.session)
  | busy (hrequest : v.session.request.isSome) (hitem : item = .label "calcul en cours…")
  | preview (x : Float) (hrequest : v.session.request = none)
      (hvalue : v.session.preview.value = some x) (hitem : item = .label ("= " ++ displayText x))
  | result (x : Float) (hresult : v.session.result = some x)
      (hitem : item = .label ("Ans = " ++ displayText x))
  | failure (e : Failure) (hfailure : v.session.failure = some e)
      (hitem : item = .label ("Erreur : " ++ e.message))
  | key (k : Key) (hk : k ∈ memoryKeys ++ padKeys ++ [clearHistoryKey]) (hitem : item = .key k)
  | memory (hitem : item = .label ("M = " ++ displayText v.session.memory.value))
  | header (hitem : item = .header (headerText v.session))
  | noHistory (hitem : item = .label "vide")
  | line (i : Nat) (x : HistoryItem) (hx : v.session.history.get? i = some x)
      (hitem : item = .line i (lineText x))

theorem shows_of_mem_stateItems {item : Item} (h : item ∈ stateItems v.session) :
    v.Shows item := by
  simp only [stateItems, List.mem_append, Option.mem_toList, Option.map_eq_some_iff] at h
  rcases h with (h | ⟨x, hx, rfl⟩) | ⟨e, he, rfl⟩
  · split at h
    · rename_i hrequest
      exact .busy hrequest (List.mem_singleton.1 h)
    · rename_i hrequest
      simp only [Option.mem_toList, Option.map_eq_some_iff] at h
      obtain ⟨x, hx, rfl⟩ := h
      exact .preview x (by simpa using hrequest) hx rfl
  · exact .result x hx rfl
  · exact .failure e he rfl

theorem shows_of_mem_memoryItems {item : Item} (h : item ∈ memoryItems v.session) :
    v.Shows item := by
  simp only [memoryItems, List.mem_append, List.mem_map] at h
  rcases h with ⟨k, hk, rfl⟩ | h
  · exact .key k (by simp [hk]) rfl
  · split at h
    · cases h
    · exact .memory (List.mem_singleton.1 h)

theorem shows_of_mem_historyItems {item : Item} (h : item ∈ v.historyItems) : v.Shows item := by
  rcases List.mem_cons.1 h with hheader | h
  · exact .header hheader
  split at h
  · cases h
  split at h
  · exact .noHistory (List.mem_singleton.1 h)
  · simp only [historyLines, List.mem_append, List.mem_mapIdx, List.mem_singleton] at h
    rcases h with ⟨i, hi, rfl⟩ | hkey
    · exact .line i _ (List.getElem?_eq_getElem hi) rfl
    · exact .key _ (by simp) hkey

/-- Nothing else is on the screen. -/
theorem shows_of_mem {item : Item} (h : item ∈ v.items) : v.Shows item := by
  simp only [items, List.mem_append] at h
  rcases h with (((h | h) | h) | h) | h
  · rcases List.mem_cons.1 h with htitle | h
    · exact .title htitle
    · exact .entry (List.mem_singleton.1 h)
  · exact shows_of_mem_stateItems h
  · exact shows_of_mem_memoryItems h
  · obtain ⟨k, hk, rfl⟩ := List.mem_map.1 h
    exact .key k (by simp [hk]) rfl
  · exact shows_of_mem_historyItems h

/-- What a label can say.  The labels that are neither about a request nor about a preview nor about
a failure start with other characters than these. -/
theorem label_cases {text : String} (h : .label text ∈ v.items) :
    (v.session.request.isSome ∧ text = "calcul en cours…") ∨
    (∃ x, v.session.request = none ∧ v.session.preview.value = some x ∧
      text = "= " ++ displayText x) ∨
    (∃ e, v.session.failure = some e ∧ text = "Erreur : " ++ e.message) ∨
    text.toList.head? ∈ [some 'C', some 'A', some 'M', some 'v'] := by
  cases shows_of_mem h with
  | busy hrequest hitem => exact .inl ⟨hrequest, Item.label.inj hitem⟩
  | preview x hrequest hvalue hitem =>
      exact .inr (.inl ⟨x, hrequest, hvalue, Item.label.inj hitem⟩)
  | failure e hfailure hitem => exact .inr (.inr (.inl ⟨e, hfailure, Item.label.inj hitem⟩))
  | title hitem => simp [Item.label.inj hitem]
  | result x _ hitem => simp [Item.label.inj hitem]
  | memory hitem => simp [Item.label.inj hitem]
  | noHistory hitem => simp [Item.label.inj hitem]
  | entry hitem => cases hitem
  | key k _ hitem => cases hitem
  | header hitem => cases hitem
  | line i x _ hitem => cases hitem

/-- The label of a request is on the screen exactly while one is under way. -/
theorem busy_mem_items : .label "calcul en cours…" ∈ v.items ↔ v.session.request.isSome := by
  constructor
  · intro h
    rcases label_cases h with ⟨hrequest, -⟩ | ⟨x, -, -, htext⟩ | ⟨e, -, htext⟩ | hother
    · exact hrequest
    · simp [← String.toList_inj] at htext
    · simp [← String.toList_inj] at htext
    · simp at hother
  · intro h
    simp [items, stateItems, h]

/-- The label of a preview is on the screen exactly if the preview has a value and no request is
under way. -/
theorem preview_mem_items {text : String} :
    .label ("= " ++ text) ∈ v.items ↔
      v.session.request = none ∧ ∃ x, v.session.preview.value = some x ∧ text = displayText x := by
  constructor
  · intro h
    rcases label_cases h with ⟨-, htext⟩ | ⟨x, hrequest, hvalue, htext⟩ | ⟨e, -, htext⟩ | hother
    · simp [← String.toList_inj] at htext
    · exact ⟨hrequest, x, hvalue, by simpa using htext⟩
    · simp [← String.toList_inj] at htext
    · simp at hother
  · rintro ⟨hrequest, x, hvalue, rfl⟩
    simp [items, stateItems, hrequest, hvalue]

/-- The label of a failure is on the screen exactly while it stands. -/
theorem failure_mem_items {text : String} :
    .label ("Erreur : " ++ text) ∈ v.items ↔
      ∃ e, v.session.failure = some e ∧ text = e.message := by
  constructor
  · intro h
    rcases label_cases h with ⟨-, htext⟩ | ⟨x, -, -, htext⟩ | ⟨e, hfailure, htext⟩ | hother
    · simp [← String.toList_inj] at htext
    · simp [← String.toList_inj] at htext
    · exact ⟨e, hfailure, by simpa using htext⟩
    · simp at hother
  · rintro ⟨e, hfailure, rfl⟩
    simp [items, stateItems, hfailure]

/-- An entry that is not empty is on the screen. -/
theorem entry_mem_items (h : v.session.entry ≠ "") : .entry v.session.entry ∈ v.items := by
  simp [items, entryItem, h]

/-- During a request neither a preview nor a failure is on the screen. -/
theorem notMem_items_of_request (hapart : v.session.request = none ∨ v.session.failure = none)
    (hrequest : v.session.request.isSome) (text : String) :
    .label ("= " ++ text) ∉ v.items ∧ .label ("Erreur : " ++ text) ∉ v.items := by
  have hasked : v.session.request ≠ none := Option.isSome_iff_ne_none.1 hrequest
  constructor
  · intro hpreview
    exact hasked (preview_mem_items.1 hpreview).1
  · intro hfailure
    obtain ⟨e, he, -⟩ := failure_mem_items.1 hfailure
    rcases hapart with hnone | hnone
    · exact hasked hnone
    · cases hnone.symm.trans he

/-- A preview on the screen is the value of the entry beside it. -/
theorem evaluateText_of_preview_mem (hfits : v.session.PreviewFits) {text : String}
    (h : .label ("= " ++ text) ∈ v.items) :
    ∃ x, .entry v.session.entry ∈ v.items ∧ evaluateText v.session.entry = .ok x ∧
      text = displayText x := by
  obtain ⟨-, x, hvalue, rfl⟩ := preview_mem_items.1 h
  have hx : evaluateText v.session.entry = .ok x := hfits.value x hvalue
  obtain ⟨tree, htree, -⟩ := evaluateText_eq_ok.1 hx
  exact ⟨x, entry_mem_items (ne_empty_of_ofText htree), hx, rfl⟩

/-! ### Gestures are actions -/

theorem leadsTo_refresh (v : Screen) : v.session.LeadsTo v.refresh.session :=
  (Session.leadsTo_step (a := .poll) rfl).trans (Session.leadsTo_step (a := .focus false) rfl)

/-- No key types. -/
theorem typesLocked_of_mem_keys {k : Key} (h : k ∈ memoryKeys ++ padKeys ++ [clearHistoryKey])
    (s : Session) : (⟨s, k.action⟩ : Moment).typesLocked = false := by
  have hall : ∀ k ∈ memoryKeys ++ padKeys ++ [clearHistoryKey],
      (⟨s, k.action⟩ : Moment).typesLocked = false := by
    simp [memoryKeys, padKeys, clearHistoryKey, Key.plain, Moment.typesLocked]
  exact hall k h

/-- A command key hands the keyboard back after its command. -/
theorem leadsTo_press {k : Key} (h : k ∈ memoryKeys ++ padKeys ++ [clearHistoryKey]) :
    v.session.LeadsTo (v.press k).1.session := by
  have hact : v.session.LeadsTo (v.session.step k.action).1 :=
    Session.leadsTo_step (typesLocked_of_mem_keys h v.session)
  unfold press
  dsimp only
  split
  · exact hact.trans (Session.leadsTo_step (a := .focus true) rfl)
  · exact hact

theorem leadsTo_clickFirst (v : Screen) (p : Item → Bool) :
    v.session.LeadsTo (v.clickFirst p).1.session := by
  unfold clickFirst
  split
  · rename_i item hfind
    have hmem : item ∈ v.items := List.mem_of_find?_eq_some hfind
    cases item with
    | label text => exact .refl _
    | entry text => exact .refl _
    | header text => exact .refl _
    | line i text => exact Session.leadsTo_step (a := .load i) rfl
    | key k =>
        cases shows_of_mem hmem with
        | key k' hk hitem =>
            obtain rfl := Item.key.inj hitem
            exact leadsTo_press hk
        | _ => rename_i hitem; cases hitem
  · exact .refl _

/-- The entry field takes no input while input is refused. -/
theorem leadsTo_editEntry (v : Screen) (text : String) :
    v.session.LeadsTo (v.editEntry text).1.session := by
  unfold editEntry
  split
  · rename_i h
    have hinput : v.session.inputAllowed = true := by
      simp only [Bool.and_eq_true] at h
      exact h.1.2
    exact Session.leadsTo_step (a := .type text) (by simp [Moment.typesLocked, hinput])
  · exact .refl _

theorem leadsTo_perform (v : Screen) (g : Gesture) :
    v.session.LeadsTo (v.perform g).1.session := by
  cases g with
  | click text => exact leadsTo_clickFirst v _
  | clickLine i => exact leadsTo_clickFirst v _
  | clickHeader => exact .refl _
  | type text => exact leadsTo_editEntry v _
  | edit text => exact leadsTo_editEntry v _
  | enter =>
      unfold perform
      dsimp only
      split
      · exact Session.leadsTo_step (a := .calculate) rfl
      · exact .refl _
  | escape => exact Session.leadsTo_step (a := .clear) rfl
  | clock now => exact Session.leadsTo_step (a := .clock (max now v.session.clock)) rfl
  | timeOfDay text => exact Session.leadsTo_step (a := .timeOfDay text) rfl
  | answer a => exact Session.leadsTo_step (a := .answer a) rfl

theorem leadsTo_step (v : Screen) (g : Gesture) : v.session.LeadsTo (v.step g).1.session :=
  (leadsTo_perform v g).trans (leadsTo_refresh _)

theorem leadsTo_run (s : Session) (gestures : List Gesture) :
    s.LeadsTo ((Screen.new s).run gestures).session :=
  run_induction (P := fun v => s.LeadsTo v.session) (fun v g h => h.trans (leadsTo_step v g))
    (leadsTo_refresh { session := s }) gestures

/-- Every screen is drawn to the end. -/
theorem refresh_run (s : Session) (gestures : List Gesture) :
    ((Screen.new s).run gestures).refresh = (Screen.new s).run gestures :=
  run_induction (P := fun v => v.refresh = v) (fun v g _ => refresh_refresh (v.perform g).1)
    (refresh_refresh _) gestures

/-! ### Lines of the history -/

/-- Clicking a line that is on the screen puts back what the line stands for. -/
theorem clickFirst_isLine {i : Nat} {text : String} (h : .line i text ∈ v.items) :
    v.clickFirst (isLine i) = v.act (.load i) := by
  unfold clickFirst
  cases hfind : v.items.find? (isLine i) with
  | none =>
      have hmissed := List.find?_eq_none.1 hfind _ h
      simp [isLine] at hmissed
  | some item =>
      have hline : isLine i item = true := List.find?_some hfind
      cases item with
      | line j text' =>
          obtain rfl : j = i := by simpa [isLine] using hline
          rfl
      | _ => cases hline

/-- Of a drawing only the poll can change the entry. -/
theorem entry_step (v : Screen) (g : Gesture) :
    (v.step g).1.session.entry = (v.perform g).1.session.poll.1.entry := rfl

/-- Clicking a line of the history that is on the screen puts its expression into the entry, if no
request is under way. -/
theorem clickLine_of_mem {i : Nat} {text : String} (h : .line i text ∈ v.items)
    (hrequest : v.session.request = none) :
    ∃ item, v.session.history.get? i = some item ∧ text = lineText item ∧
      (v.step (.clickLine i)).1.session.entry = item.expression := by
  cases shows_of_mem h with
  | line j item hitem htext =>
      obtain ⟨rfl, rfl⟩ := Item.line.inj htext
      obtain ⟨hentry, hidle, -⟩ := Session.load_of_get? hrequest hitem
      have hperform : v.perform (.clickLine i) = v.act (.load i) := clickFirst_isLine h
      have hpoll : (v.session.load i).poll.1.entry = (v.session.load i).entry := by
        rw [Session.poll_of_request_none hidle]
        rfl
      refine ⟨item, hitem, rfl, ?_⟩
      calc (v.step (.clickLine i)).1.session.entry
          = (v.perform (.clickLine i)).1.session.poll.1.entry := entry_step v _
        _ = (v.session.load i).poll.1.entry := by
            rw [hperform, session_act]
            rfl
        _ = item.expression := hpoll.trans hentry
  | _ => rename_i hitem; cases hitem

/-! ### Every screen -/

/-- **The screen is never stale or contradictory.**  Whatever a user does, the session on the screen
is one that actions lead to, the entry being typed over only while input is allowed; and drawing the
screen again changes nothing.  A request is shown exactly while one is under way, and then neither a
preview nor a failure; a preview that is shown is the value of the entry on the screen; and clicking
a line of the history, if no request is under way, puts the expression of the line into the
entry. -/
theorem screen_never_stale (settings : Settings) (hasService : Bool) (gestures : List Gesture) :
    let start := Session.new settings hasService
    let v := (Screen.new start).run gestures
    (∃ actions, v.session = start.run actions ∧
      ∀ m ∈ start.trace actions, m.typesLocked = false) ∧
    v.refresh = v ∧
    (.label "calcul en cours…" ∈ v.items ↔ v.session.request.isSome) ∧
    (v.session.request.isSome → ∀ text,
      .label ("= " ++ text) ∉ v.items ∧ .label ("Erreur : " ++ text) ∉ v.items) ∧
    (∀ text, .label ("= " ++ text) ∈ v.items → ∃ x, .entry v.session.entry ∈ v.items ∧
      evaluateText v.session.entry = .ok x ∧ text = displayText x) ∧
    (v.session.request = none → ∀ i text, .line i text ∈ v.items →
      ∃ item, v.session.history.get? i = some item ∧ text = lineText item ∧
        (v.step (.clickLine i)).1.session.entry = item.expression) := by
  intro start v
  have hleads : start.LeadsTo v.session := leadsTo_run start gestures
  have hapart : v.session.request = none ∨ v.session.failure = none :=
    hleads.of_new (P := fun s => s.request = none ∨ s.failure = none)
      (Session.request_or_failure_run settings hasService)
  have hfits : v.session.PreviewFits :=
    hleads.of_new (P := Session.PreviewFits) (Session.previewFits_run settings hasService)
  refine ⟨hleads, refresh_run start gestures, busy_mem_items, ?_, ?_, ?_⟩
  · intro hrequest text
    exact notMem_items_of_request hapart hrequest text
  · intro text hpreview
    exact evaluateText_of_preview_mem hfits hpreview
  · intro hrequest i text hline
    exact clickLine_of_mem hline hrequest

-- a sum whose preview came due, then a request that is not answered, and a line put back
example :
    let v := (Screen.new (Session.new { mode := .serviceOrBuiltIn } true)).run
      [.type "1+1", .clock 300]
    let asked := v.run [.enter, .click "C"]
    let answered := asked.run [.answer .lost, .escape, .clickLine 0]
    "= 2" ∈ v.texts ∧ "calcul en cours…" ∈ asked.texts ∧ answered.session.entry = "1+1" := by
  decide +kernel

end Screen

end Calculator
