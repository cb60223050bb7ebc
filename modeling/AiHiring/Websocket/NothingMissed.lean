import AiHiring.Websocket.StageRows

namespace AiHiring

open Library StageRows DocumentProcessingRepository StageSummary WebSocketEvent

theorem WebSocketEvent.shows_ofExecution (stage : ProcessingStage) (execution : StageExecution) :
    (ofExecution execution).shows stage =
      if execution.stage = stage then some execution.status else none :=
  rfl

theorem ResumeProcessingStatusService.lastShown_getStatusAsEvents (resumeId : Option Uuid)
    {rows : List StageExecution} {row : StageExecution} (hwell : WellFormed rows)
    (hrow : IsLatest rows row) :
    lastShown (shows row.stage) (getStatusAsEvents resumeId rows) = some row.status := by
  refine lastShown_suffix (lastShown_of_agree ?_ ?_)
  · refine ⟨ofExecution row, List.mem_map_of_mem ((mem_collapse hwell).mpr hrow), ?_⟩
    rw [shows_ofExecution, if_pos rfl]
  · intro event hevent status hshows
    obtain ⟨other, hother, rfl⟩ := List.mem_map.mp hevent
    rw [shows_ofExecution] at hshows
    split_ifs at hshows with hstage
    obtain rfl := hrow.unique hwell ((mem_collapse hwell).mp hother) hstage.symm
    exact (Option.some.inj hshows).symm

namespace LiveProgress

-- What the listener still has to bring to the client.
def World.ahead (w : World) (client : ClientId) : List WebSocketEvent :=
  (if client ∈ w.targets then w.taken.toList else []) ++ w.coming

-- The client has read the event's state of the stage in its snapshot.
def Session.Knows (session : Session) (event : WebSocketEvent) : Prop :=
  ∀ stage status, event.shows stage = some status →
    lastShown (shows stage) (session.received ++ session.unsent) = some status

-- No event of the snapshot with another status waits behind the last live event of the
-- stage.
def NotOvertaken (w : World) (session : Session) (event : WebSocketEvent) : Prop :=
  ∀ row ∈ collapseToLatestAttempt w.rows, row.completed = true →
    event.shows row.stage = some row.status → lastShown (shows row.stage) w.coming = none →
      ∀ waiting ∈ session.unsent, ∀ status, waiting.shows row.stage = some status →
        status = row.status

-- An event is published to a listener that has subscribed, or everybody with a snapshot
-- has it there; and it does not overtake an older event of a snapshot.
def KeepsUp (w : World) : Action → World → Prop
  | .publish, _ => w.attached = true ∨ ∀ event, w.unpublished = some event →
      ∀ client session, w.sessions client = some session → session.gone = false →
        session.phase = .following → session.Knows event
  | .deliver client, _ => ∀ event session, w.taken = some event →
      w.sessions client = some session → session.gone = false → NotOvertaken w session event
  | _, _ => True

-- What the client has been sent and what is under way to it end with the row's status.
def Promised (w : World) (client : ClientId) (session : Session) : Prop :=
  ∀ row, IsLatest w.rows row → row.completed = true →
    lastShown (shows row.stage) (session.received ++ session.unsent ++ w.ahead client) =
      some row.status

structure Inv (w : World) : Prop where
  rows : WellFormed w.rows
  running : ∀ stage attemptNumber, w.running = some (stage, attemptNumber) →
    w.unpublished = none ∧ (∃ row ∈ w.rows, sameTriple row stage attemptNumber = true) ∧
      ∀ row ∈ w.rows, row.stage = stage → row.attemptNumber ≤ attemptNumber
  quiet : w.attached = false → w.buffer = [] ∧ w.taken = none ∧ w.targets = []
  registered : ∀ client session, w.sessions client = some session → session.gone = false →
    client ∈ w.connections
  live : ∀ row, IsLatest w.rows row → row.completed = true → ∀ status,
    lastShown (shows row.stage) (w.taken.toList ++ w.coming) = some status → status = row.status
  promised : ∀ client session, w.sessions client = some session → session.gone = false →
    session.phase = .following → Promised w client session

theorem inv_begin (resumeId : Option Uuid) : Inv (World.begin resumeId) where
  rows := ⟨by simp [World.begin], by simp [World.begin]⟩
  running := by simp [World.begin]
  quiet _ := ⟨rfl, rfl, rfl⟩
  registered := by simp [World.begin]
  live row hrow := absurd hrow.1 List.not_mem_nil
  promised := by simp [World.begin]

section Sessions

variable {w : World} {client : ClientId}

theorem World.sessions_setSession {session : Option Session} {other : ClientId} {found : Session}
    (hfound : (w.setSession client session).sessions other = some found) :
    other = client ∧ session = some found ∨ other ≠ client ∧ w.sessions other = some found := by
  change Function.update w.sessions client session other = some found at hfound
  by_cases hother : other = client
  · rw [hother, Function.update_self] at hfound
    exact .inl ⟨hother, hfound⟩
  · rw [Function.update_of_ne hother] at hfound
    exact .inr ⟨hother, hfound⟩

theorem Inv.setSession (h : Inv w) {session : Session}
    (hregistered : session.gone = false → client ∈ w.connections)
    (hpromised : session.gone = false → session.phase = .following →
      Promised w client session) : Inv (w.setSession client (some session)) := by
  refine ⟨h.rows, h.running, h.quiet, ?_, h.live, ?_⟩
  · intro other found hfound hgone
    obtain ⟨rfl, hsome⟩ | ⟨-, hold⟩ := World.sessions_setSession hfound
    · rw [← Option.some.inj hsome] at hgone
      exact hregistered hgone
    · exact h.registered other found hold hgone
  · intro other found hfound hgone hphase
    obtain ⟨rfl, hsome⟩ | ⟨-, hold⟩ := World.sessions_setSession hfound
    · cases hsome
      exact hpromised hgone hphase
    · exact h.promised other found hold hgone hphase

theorem Inv.connect (h : Inv w) :
    Inv { w.setSession client (some freshSession) with
      connections := w.connections ++ [client] } := by
  have hmore : Inv { w with connections := w.connections ++ [client] } :=
    ⟨h.rows, h.running, h.quiet, fun other session hsession hgone =>
      List.mem_append_left _ (h.registered other session hsession hgone), h.live, h.promised⟩
  refine Inv.setSession hmore (fun _ => ?_) (fun _ hphase => nomatch hphase)
  exact List.mem_append_right _ (List.mem_singleton_self _)

theorem Inv.subscribe (h : Inv w) {session : Session}
    (hsession : w.sessions client = some session) :
    Inv { w.setSession client (some { session with phase := .subscribed }) with
      listener := some (w.listener.getD freshListener) } := by
  have hlistener : Inv { w with listener := some (w.listener.getD freshListener) } := by
    obtain ⟨rows, resumeId, running, unpublished, connections, sessions, listener⟩ := w
    cases listener with
    | none => exact ⟨h.rows, h.running, fun _ => ⟨rfl, rfl, rfl⟩, h.registered, h.live, h.promised⟩
    | some listener => exact h
  exact Inv.setSession hlistener (h.registered client session hsession)
    (fun _ hphase => nomatch hphase)

theorem Inv.read (h : Inv w) {session : Session} (hsession : w.sessions client = some session) :
    Inv (w.setSession client (some { session with
      phase := .following
      unsent := ResumeProcessingStatusService.getStatusAsEvents w.resumeId w.rows })) := by
  refine h.setSession (h.registered client session hsession) fun _ _ row hrow hcompleted => ?_
  have hsnapshot : lastShown (shows row.stage) (session.received ++
      ResumeProcessingStatusService.getStatusAsEvents w.resumeId w.rows) = some row.status :=
    lastShown_suffix
      (ResumeProcessingStatusService.lastShown_getStatusAsEvents w.resumeId h.rows hrow)
  rw [lastShown_append, hsnapshot]
  cases hahead : lastShown (shows row.stage) (w.ahead client) with
  | none => rfl
  | some status =>
    have hstream : lastShown (shows row.stage) (w.taken.toList ++ w.coming) = some status := by
      rw [World.ahead] at hahead
      split_ifs at hahead
      · exact hahead
      · exact lastShown_suffix hahead
    rw [h.live row hrow hcompleted status hstream, Option.some_or]

theorem Inv.send (h : Inv w) {session : Session} {event : WebSocketEvent}
    {rest : List WebSocketEvent} (hsession : w.sessions client = some session)
    (hunsent : session.unsent = event :: rest) :
    Inv (w.setSession client (some { session with
      unsent := rest, received := session.received ++ [event] })) := by
  refine h.setSession (h.registered client session hsession) fun hgone hphase row hrow hdone => ?_
  have hold := h.promised client session hsession hgone hphase row hrow hdone
  rw [hunsent] at hold
  simpa using hold

theorem Inv.leave (h : Inv w) (session : Session) :
    Inv (w.setSession client (some { session with gone := true })) :=
  h.setSession (fun hgone => nomatch hgone) (fun hgone => nomatch hgone)

end Sessions

section Worker

variable {w : World} {event : WebSocketEvent}

theorem Inv.commit (h : Inv w) (hunpublished : w.unpublished = none) {rows : List StageExecution}
    (hrows : WellFormed rows)
    (hnews : ∀ row, IsLatest rows row → row.completed = true →
      event.shows row.stage = some row.status ∨
        event.shows row.stage = none ∧ IsLatest w.rows row) :
    Inv { w with rows := rows, running := none, unpublished := some event } := by
  let w' : World := { w with rows := rows, running := none, unpublished := some event }
  have hcoming : w'.coming = w.coming ++ [event] := by
    simp [World.coming, hunpublished, w']
    rfl
  have hahead (client : ClientId) : w'.ahead client = w.ahead client ++ [event] := by
    rw [World.ahead, hcoming, World.ahead, List.append_assoc]
    rfl
  refine ⟨hrows, ?_, h.quiet, h.registered, ?_, ?_⟩
  · intro stage attemptNumber hrunning
    cases hrunning
  · intro row hrow hcompleted status hstatus
    change lastShown _ (w.taken.toList ++ w'.coming) = _ at hstatus
    rw [hcoming, ← List.append_assoc] at hstatus
    obtain hshows | ⟨hnone, hold⟩ := hnews row hrow hcompleted
    · rw [lastShown_suffix (by rw [lastShown_singleton, hshows])] at hstatus
      exact (Option.some.inj hstatus).symm
    · rw [lastShown_append_of_none (by rw [lastShown_singleton, hnone])] at hstatus
      exact h.live row hold hcompleted status hstatus
  · intro client session hsession hgone hphase row hrow hcompleted
    change lastShown _ (_ ++ w'.ahead client) = _
    rw [hahead, ← List.append_assoc]
    obtain hshows | ⟨hnone, hold⟩ := hnews row hrow hcompleted
    · exact lastShown_suffix (by rw [lastShown_singleton, hshows])
    · rw [lastShown_append_of_none (by rw [lastShown_singleton, hnone])]
      exact h.promised client session hsession hgone hphase row hold hcompleted

theorem Inv.start (h : Inv w) {stage : ProcessingStage} {attemptNumber : ℕ}
    (hstart : w.canStart stage attemptNumber = true) :
    Inv { w with
      rows := startStage w.rows stage attemptNumber
      running := some (stage, attemptNumber) } := by
  have hcan : w.unpublished = none ∧
      ∀ row ∈ w.rows, row.stage = stage → row.attemptNumber ≤ attemptNumber := by
    simpa [World.canStart, imp_iff_not_or] using hstart
  have hputs : Puts w.rows _ _ := puts_startStage stage attemptNumber
  have hold {row : StageExecution} (hrow : IsLatest (startStage w.rows stage attemptNumber) row)
      (hcompleted : row.completed = true) : IsLatest w.rows row := by
    obtain rfl | ⟨-, hold⟩ := hputs.isLatest hcan.2 hrow
    · simp [StageExecution.completed, runningRow] at hcompleted
    · exact hold
  refine ⟨hputs.wellFormed h.rows (fun hstatus => nomatch hstatus), ?_, h.quiet, h.registered,
    ?_, ?_⟩
  · intro stage' attemptNumber' hrunning
    cases hrunning
    refine ⟨hcan.1, ⟨_, (hputs _).mpr (.inl rfl), ?_⟩, hputs.attempts hcan.2⟩
    exact decide_eq_true ⟨rfl, rfl⟩
  · intro row hrow hcompleted
    exact h.live row (hold hrow hcompleted) hcompleted
  · intro client session hsession hgone hphase row hrow hcompleted
    exact h.promised client session hsession hgone hphase row (hold hrow hcompleted) hcompleted

theorem Inv.complete (h : Inv w) {stage : ProcessingStage} {attemptNumber : ℕ}
    (hrunning : w.running = some (stage, attemptNumber)) (outcome : Outcome) (durationMs : ℕ) :
    Inv { w with
      rows := completeStage w.rows (outcome.execution stage attemptNumber durationMs)
      running := none
      unpublished := some (ofExecution (outcome.execution stage attemptNumber durationMs)) } := by
  obtain ⟨hunpublished, hexists, hmax⟩ := h.running stage attemptNumber hrunning
  let execution := outcome.execution stage attemptNumber durationMs
  have hputs : Puts w.rows execution (completeStage w.rows execution) := puts_map hexists
  have hstatus : execution.status ≠ .skipped := by
    cases outcome with
    | success => exact fun hsame => nomatch hsame
    | failed message => exact fun hsame => nomatch hsame
  refine h.commit hunpublished (hputs.wellFormed h.rows hstatus) fun row hrow _ => ?_
  obtain rfl | ⟨hstage, hold⟩ := hputs.isLatest hmax hrow
  · exact .inl (by rw [shows_ofExecution, if_pos rfl])
  · exact .inr ⟨by rw [shows_ofExecution, if_neg (Ne.symm hstage)], hold⟩

theorem Inv.link (h : Inv w) (hrunning : w.running = none) (hunpublished : w.unpublished = none)
    (documentId : Uuid) : Inv { w with unpublished := some (.taskLinked documentId) } := by
  have hcommit : Inv { w with
      rows := w.rows, running := none, unpublished := some (.taskLinked documentId) } :=
    h.commit hunpublished h.rows fun row hrow _ => .inr ⟨rfl, hrow⟩
  rw [← hrunning] at hcommit
  exact hcommit

end Worker

section Listening

variable {w w' : World}

theorem Inv.relay (h : Inv w) (hrows : w'.rows = w.rows) (hrunning : w'.running = w.running)
    (hunpublished : w.unpublished = none → w'.unpublished = none)
    (hquiet : w'.attached = false → w'.buffer = [] ∧ w'.taken = none ∧ w'.targets = [])
    (hsessions : ∀ client session, w'.sessions client = some session → session.gone = false →
      w.sessions client = some session ∧ client ∈ w'.connections ∧
        (session.phase = .following → Promised w client session → Promised w' client session))
    (hfeed : w'.taken.toList ++ w'.coming <:+ w.taken.toList ++ w.coming) : Inv w' := by
  refine ⟨hrows ▸ h.rows, ?_, hquiet, ?_, ?_, ?_⟩
  · intro stage attemptNumber hin
    rw [hrunning] at hin
    obtain ⟨hnone, hrest⟩ := h.running stage attemptNumber hin
    exact ⟨hunpublished hnone, hrows ▸ hrest⟩
  · intro client session hsession hgone
    exact (hsessions client session hsession hgone).2.1
  · intro row hrow hcompleted status hstatus
    obtain ⟨before, hbefore⟩ := hfeed
    rw [hrows] at hrow
    exact h.live row hrow hcompleted status (hbefore ▸ lastShown_suffix hstatus)
  · intro client session hsession hgone hphase
    obtain ⟨hold, -, hpromised⟩ := hsessions client session hsession hgone
    exact hpromised hphase (h.promised client session hold hgone hphase)

theorem Promised.congr {client : ClientId} {session : Session} (h : Promised w client session)
    (hrows : w'.rows = w.rows) (hahead : w'.ahead client = w.ahead client) :
    Promised w' client session := by
  intro row hrow hcompleted
  rw [hahead]
  exact h row (hrows ▸ hrow) hcompleted

theorem Inv.publish (h : Inv w) {event : WebSocketEvent} (hevent : w.unpublished = some event)
    (hkeeps : KeepsUp w .publish w') : Inv (w.publish event) := by
  by_cases hattached : w.attached = true
  · have hcoming : (w.publish event).coming = w.coming := by
      rw [World.coming, World.publish_buffer, if_pos hattached, World.coming, hevent]
      exact List.append_nil _
    refine h.relay rfl rfl (fun _ => rfl) ?_ ?_ ?_
    · intro hoff
      rw [World.publish_attached, hattached] at hoff
      cases hoff
    · intro client session hsession hgone
      refine ⟨hsession, h.registered client session hsession hgone, fun _ hpromised => ?_⟩
      refine hpromised.congr rfl ?_
      rw [World.ahead, hcoming, World.publish_targets, World.publish_taken, World.ahead]
    · rw [World.publish_taken, hcoming]
  · obtain ⟨hbuffer, htaken, htargets⟩ := h.quiet (Bool.eq_false_iff.mpr hattached)
    have hbuffer' : (w.publish event).buffer = [] := by
      rw [World.publish_buffer, if_neg hattached, hbuffer]
    have hcoming : (w.publish event).coming = [] := by
      rw [World.coming, hbuffer']
      rfl
    refine h.relay rfl rfl (fun _ => rfl) ?_ ?_ ?_
    · intro _
      exact ⟨hbuffer', by rw [World.publish_taken, htaken], by rw [World.publish_targets, htargets]⟩
    · intro client session hsession hgone
      refine ⟨hsession, h.registered client session hsession hgone, ?_⟩
      intro hphase hpromised row hrow hcompleted
      have hold := hpromised row hrow hcompleted
      have hknows : session.Knows event := by
        obtain hon | hall := hkeeps
        · exact absurd hon hattached
        · exact hall event hevent client session hsession hgone hphase
      rw [World.ahead, World.publish_targets, htargets, if_neg List.not_mem_nil, hcoming]
      rw [World.ahead, htargets, if_neg List.not_mem_nil, World.coming, hbuffer, hevent] at hold
      change lastShown _ (_ ++ [event]) = _ at hold
      rw [List.append_nil, List.append_nil]
      cases hshows : event.shows row.stage with
      | none =>
        rw [lastShown_append_of_none (by rw [lastShown_singleton, hshows])] at hold
        exact hold
      | some status =>
        rw [lastShown_suffix (by rw [lastShown_singleton, hshows])] at hold
        rw [← hold]
        exact hknows row.stage status hshows
    · rw [World.publish_taken, htaken, hcoming]
      exact List.nil_suffix

theorem Inv.attach (h : Inv w) {listener : Listener} (hlistener : w.listener = some listener) :
    Inv { w with listener := some { listener with attached := true } } := by
  obtain ⟨rows, resumeId, running, unpublished, connections, sessions, _⟩ := w
  obtain rfl := hlistener
  exact ⟨h.rows, h.running, fun hoff => (nomatch hoff), h.registered, h.live, h.promised⟩

theorem Inv.take (h : Inv w) {listener : Listener} {event : WebSocketEvent}
    {rest : List WebSocketEvent} (hlistener : w.listener = some listener)
    (hbuffer : listener.buffer = event :: rest) (htargets : listener.targets = []) :
    Inv { w with listener := some { listener with
      buffer := rest, taken := some event, targets := w.connections } } := by
  have hcoming : w.coming = event :: rest ++ w.unpublished.toList := by
    rw [World.coming, World.buffer, hlistener, Option.map_some, Option.getD_some, hbuffer]
  have hon : w.attached = true := by
    by_contra hoff
    have hempty := (h.quiet (Bool.eq_false_iff.mpr hoff)).1
    rw [World.buffer, hlistener, Option.map_some, Option.getD_some, hbuffer] at hempty
    cases hempty
  refine h.relay rfl rfl id ?_ ?_ ?_
  · intro hoff
    rw [World.attached, hlistener] at hon
    change listener.attached = false at hoff
    change listener.attached = true at hon
    rw [hon] at hoff
    cases hoff
  · intro client session hsession hgone
    have hregistered := h.registered client session hsession hgone
    refine ⟨hsession, hregistered, fun _ hpromised => hpromised.congr rfl ?_⟩
    have hnone : client ∉ w.targets := by
      rw [World.targets, hlistener, Option.map_some, Option.getD_some, htargets]
      exact List.not_mem_nil
    change (if client ∈ w.connections then [event] else []) ++ (rest ++ w.unpublished.toList) = _
    rw [if_pos hregistered, World.ahead, if_neg hnone, hcoming]
    rfl
  · rw [hcoming]
    exact ⟨w.taken.toList, rfl⟩

theorem Inv.disconnect (h : Inv w) (client : ClientId) : Inv (w.disconnect client) := by
  have hothers {other : ClientId} {found : Session}
      (hfound : (w.disconnect client).sessions other = some found)
      (hfoundGone : found.gone = false) :
      w.sessions other = some found ∧ other ∈ w.connections.filter (· ≠ client) := by
    obtain ⟨-, hnone⟩ | ⟨hne, hold⟩ := World.sessions_setSession (w := w) hfound
    · cases hnone
    · refine ⟨hold, List.mem_filter.mpr ⟨h.registered other found hold hfoundGone, ?_⟩⟩
      exact decide_eq_true hne
  by_cases hlast : w.connections.filter (· ≠ client) = []
  · have hlistener : (w.disconnect client).listener = none := if_pos hlast
    have htaken : (w.disconnect client).taken = none := by
      rw [World.taken, hlistener]
      rfl
    have hbuffer : (w.disconnect client).buffer = [] := by
      rw [World.buffer, hlistener]
      rfl
    refine h.relay rfl rfl id ?_ ?_ ?_
    · intro _
      refine ⟨hbuffer, htaken, ?_⟩
      rw [World.targets, hlistener]
      rfl
    · intro other found hfound hfoundGone
      have hregistered := (hothers hfound hfoundGone).2
      rw [hlast] at hregistered
      simp at hregistered
    · rw [htaken, World.coming, hbuffer, World.coming]
      exact ⟨w.taken.toList ++ w.buffer, List.append_assoc _ _ _⟩
  · have hlistener : (w.disconnect client).listener = w.listener := if_neg hlast
    have htaken : (w.disconnect client).taken = w.taken := by
      rw [World.taken, hlistener, World.taken]
    have hcoming : (w.disconnect client).coming = w.coming := by
      rw [World.coming, World.buffer, hlistener]
      rfl
    refine h.relay rfl rfl id ?_ ?_ ?_
    · intro hoff
      rw [World.attached, hlistener] at hoff
      rw [World.buffer, htaken, World.targets, hlistener]
      exact h.quiet hoff
    · intro other found hfound hfoundGone
      obtain ⟨hold, hregistered⟩ := hothers hfound hfoundGone
      refine ⟨hold, hregistered, fun _ hpromised => hpromised.congr rfl ?_⟩
      rw [World.ahead, htaken, hcoming, World.targets, hlistener]
      rfl
    · rw [htaken, hcoming]

theorem World.ahead_served (w : World) {client other : ClientId} (hne : other ≠ client) :
    (w.served client).ahead other = w.ahead other := by
  have hmem : other ∈ (w.served client).targets ↔ other ∈ w.targets := by
    rw [World.served_targets, List.mem_filter]
    exact and_iff_left (decide_eq_true hne)
  rw [World.ahead, World.ahead, World.served_taken, World.served_coming]
  simp only [hmem]

theorem Inv.served_quiet (h : Inv w) (client : ClientId)
    (hoff : (w.served client).attached = false) :
    (w.served client).buffer = [] ∧ (w.served client).taken = none ∧
      (w.served client).targets = [] := by
  rw [World.served_attached] at hoff
  obtain ⟨hbuffer, htaken, htargets⟩ := h.quiet hoff
  rw [World.served_buffer, World.served_taken, World.served_targets, hbuffer, htaken, htargets]
  exact ⟨rfl, rfl, rfl⟩

theorem Inv.fail (h : Inv w) {client : ClientId}
    (hgone : (w.sessions client).all Session.gone = true) :
    Inv { w.served client with connections := w.connections.filter (· ≠ client) } := by
  refine h.relay rfl rfl id ?_ ?_ ?_
  · intro hoff
    obtain ⟨hbuffer, htaken, htargets⟩ := h.served_quiet client hoff
    exact ⟨hbuffer, htaken, htargets⟩
  · intro other found hfound hfoundGone
    have hold : w.sessions other = some found := hfound
    have hne : other ≠ client := by
      rintro rfl
      rw [hold, Option.all_some, hfoundGone] at hgone
      cases hgone
    have hregistered := h.registered other found hold hfoundGone
    refine ⟨hold, List.mem_filter.mpr ⟨hregistered, decide_eq_true hne⟩, ?_⟩
    intro _ hpromised
    exact hpromised.congr rfl (World.ahead_served w hne)
  · change (w.served client).taken.toList ++ (w.served client).coming <:+ _
    rw [World.served_taken, World.served_coming]

theorem Inv.deliver (h : Inv w) {client : ClientId} {session : Session} {event : WebSocketEvent}
    (hevent : w.taken = some event) (hsession : w.sessions client = some session)
    (htarget : client ∈ w.targets) (hkeeps : KeepsUp w (.deliver client) w') :
    Inv ((w.served client).setSession client (some { session with
      received := session.received ++ [event] })) := by
  refine ⟨h.rows, h.running, h.served_quiet client, ?_, ?_, ?_⟩
  · intro other found hfound hfoundGone
    obtain ⟨rfl, hsome⟩ | ⟨-, hold⟩ := World.sessions_setSession hfound
    · rw [← Option.some.inj hsome] at hfoundGone
      exact h.registered other session hsession hfoundGone
    · exact h.registered other found hold hfoundGone
  · intro row hrow hcompleted status hstatus
    change lastShown _ ((w.served client).taken.toList ++ (w.served client).coming) = _ at hstatus
    rw [World.served_taken, World.served_coming] at hstatus
    exact h.live row hrow hcompleted status hstatus
  · intro other found hfound hfoundGone hphase row hrow hcompleted
    change lastShown _ (_ ++ (w.served client).ahead other) = _
    obtain ⟨rfl, hsome⟩ | ⟨hne, hold⟩ := World.sessions_setSession hfound
    · cases hsome
      have hnone : other ∉ (w.served other).targets := by simp
      have hpromised := h.promised other session hsession hfoundGone hphase row hrow hcompleted
      rw [World.ahead, if_pos htarget, hevent] at hpromised
      rw [World.ahead, if_neg hnone, World.served_coming]
      refine lastShown_overtake hpromised ?_
      exact hkeeps event session hevent hsession hfoundGone row
        ((mem_collapse h.rows).mpr hrow) hcompleted
    · rw [World.ahead_served w hne]
      exact h.promised other found hold hfoundGone hphase row hrow hcompleted

end Listening

section Runs

variable {w w' : World}

theorem Inv.step (h : Inv w) {action : Action} (hkeeps : KeepsUp w action w')
    (hstep : Step w action w') : Inv w' := by
  rw [Step] at hstep
  cases action with
  | start stage attemptNumber =>
    simp only [next?] at hstep
    split_ifs at hstep with hstart
    cases hstep
    exact h.start hstart
  | complete outcome durationMs =>
    obtain ⟨⟨stage, attemptNumber⟩, hrunning, rfl⟩ := Option.map_eq_some_iff.mp hstep
    exact h.complete hrunning outcome durationMs
  | link documentId =>
    simp only [next?] at hstep
    split_ifs at hstep with hidle
    cases hstep
    exact h.link hidle.1 hidle.2 documentId
  | publish =>
    obtain ⟨event, hevent, rfl⟩ := Option.map_eq_some_iff.mp hstep
    exact h.publish hevent hkeeps
  | connect client =>
    simp only [next?] at hstep
    split_ifs at hstep
    cases hstep
    exact h.connect
  | subscribe client =>
    simp only [next?] at hstep
    split at hstep
    · split_ifs at hstep
      cases hstep
      exact h.subscribe (by assumption)
    · cases hstep
  | read client =>
    simp only [next?] at hstep
    split at hstep
    · split_ifs at hstep
      cases hstep
      exact h.read (by assumption)
    · cases hstep
  | send client =>
    simp only [next?] at hstep
    split at hstep
    · split at hstep
      · cases hstep
        exact h.send (by assumption) (by assumption)
      · cases hstep
    · cases hstep
  | leave client =>
    obtain ⟨session, -, rfl⟩ := Option.map_eq_some_iff.mp hstep
    exact h.leave session
  | disconnect client =>
    simp only [next?] at hstep
    split at hstep
    · split_ifs at hstep
      cases hstep
      exact h.disconnect client
    · cases hstep
  | attach =>
    obtain ⟨listener, hlistener, rfl⟩ := Option.map_eq_some_iff.mp hstep
    exact h.attach hlistener
  | take =>
    simp only [next?] at hstep
    split at hstep
    · split at hstep
      · split_ifs at hstep with htargets
        cases hstep
        exact h.take (by assumption) (by assumption) htargets
      · cases hstep
    · cases hstep
  | deliver client =>
    simp only [next?] at hstep
    split at hstep
    · split_ifs at hstep with htarget
      cases hstep
      exact h.deliver (by assumption) (by assumption) htarget hkeeps
    · cases hstep
  | fail client =>
    simp only [next?] at hstep
    split_ifs at hstep with hfails
    cases hstep
    exact h.fail hfails.2

theorem Inv.nothingMissed (h : Inv w) : NothingMissed w := by
  intro hsettled client session hsession row hrow hcompleted
  obtain ⟨hgone, hphase, hunsent⟩ := hsettled.sessions client session hsession
  have hlast := h.promised client session hsession hgone hphase row
    ((mem_collapse h.rows).mp hrow) hcompleted
  have hahead : w.ahead client = [] := by
    rw [World.ahead, World.coming, World.buffer, World.targets, hsettled.published]
    cases hlistener : w.listener with
    | none => rfl
    | some listener =>
      obtain ⟨-, hbuffer, htargets⟩ := hsettled.listener listener hlistener
      simp [hbuffer, htargets]
  rw [hunsent, hahead, List.append_nil, List.append_nil] at hlast
  exact ⟨exists_shown hlast, hlast⟩

theorem nothingMissed_of_keepsUp (resumeId : Option Uuid) (path : List (Action × World))
    (hp : Path Step (World.begin resumeId) path)
    (hkeeps : EveryStep KeepsUp (World.begin resumeId) path) :
    ∀ w ∈ visited (World.begin resumeId) path, NothingMissed w := by
  intro w hw
  have hinv := hp.guarded_invariant (inv_begin resumeId) hkeeps
    (fun w action w' h hkeeps hstep => h.step hkeeps hstep) w hw
  exact hinv.nothingMissed

end Runs

def progressRun (actions : List Action) : List (Action × World) :=
  execute next? (World.begin none) actions

theorem progressRun_path (actions : List Action) :
    Path Step (World.begin none) (progressRun actions) :=
  execute_path next? (fun _ _ _ h => h) (World.begin none) actions

def watched : List Action :=
  [.connect 0, .subscribe 0, .attach, .start .textExtraction 1, .read 0, .send 0,
    .complete .success 40, .publish, .take, .deliver 0]

theorem nothingMissed_watched : NothingMissed (final (World.begin none) (progressRun watched)) := by
  refine nothingMissed_of_keepsUp none (progressRun watched) (progressRun_path watched) ?_ _
    (final_mem_visited _ _)
  refine ⟨trivial, trivial, trivial, trivial, trivial, trivial, trivial, .inl rfl, trivial, ?_,
    trivial⟩
  intro event session _ hsession _ row _ _ _ _ waiting hwaiting
  cases hsession
  simp at hwaiting

def missed : List Action :=
  [.connect 0, .subscribe 0, .read 0, .start .textExtraction 1, .complete .success 40, .publish,
    .attach]

theorem settled_missed : Settled (final (World.begin none) (progressRun missed)) := by
  refine ⟨rfl, ?_, ?_⟩
  · intro client session hsession
    cases client with
    | zero =>
      cases hsession
      exact ⟨rfl, rfl, rfl⟩
    | succ other =>
      have hnone : (final (World.begin none) (progressRun missed)).sessions (other + 1) = none :=
        rfl
      rw [hnone] at hsession
      cases hsession
  · intro listener hlistener
    cases hlistener
    exact ⟨rfl, rfl, rfl⟩

theorem event_missed : ¬∀ (resumeId : Option Uuid) (path : List (Action × World)),
      Path Step (World.begin resumeId) path →
      ∀ w ∈ visited (World.begin resumeId) path, NothingMissed w := by
  intro h
  have hall := h none (progressRun missed) (progressRun_path missed)
  have hinformed := hall _ (final_mem_visited _ _) settled_missed 0 _ rfl
    (Outcome.success.execution .textExtraction 1 40) (by decide +kernel) (by decide)
  obtain ⟨event, hevent, -⟩ := hinformed.shown
  exact absurd hevent List.not_mem_nil

-- The listener brings the end of the stage before the snapshot's event of its start.
example : ((final (World.begin none) (progressRun
    [.connect 0, .subscribe 0, .attach, .start .textExtraction 1, .read 0,
      .complete .success 40, .publish, .take, .deliver 0, .send 0])).sessions 0).bind
    (fun session => lastShown (shows .textExtraction) session.received) = some .running := by
  decide +kernel

end LiveProgress

end AiHiring
