import AiHiring.Providers.Calls

namespace AiHiring.AIProviders

open Library
open Write (updateRow setActiveRow)

def HasActive (rows : AIProviderConfigTable) : Prop :=
  ∃ r ∈ rows.rows, r.isActive = true ∧ r.isVerified = true ∧
    ∀ s ∈ rows.rows, s.isActive = true → s = r

-- What a step promises: one row is active whenever there is one at all, the last
-- row stays, and a call that raises has committed nothing.
structure Promise (w t : World) : Prop where
  oneActive : t.rows.rows ≠ [] → HasActive t.rows
  neverEmptied : w.rows.rows ≠ [] → t.rows.rows ≠ []
  raisesCleanly : ∀ (i : ℕ) (call call' : Call), w.calls[i]? = some call →
    t.calls[i]? = some call' → call' ≠ call → (∃ message, call'.point = .raised message) →
      t.rows = w.rows ∧ ∀ id, call.point ≠ .committed id

-- A row is deleted while it is not active, and the row of a response is still there.
def Careful (w : World) : Event → World → Prop
  | .begin _, _ => True
  | .advance i, _ => ∀ call, w.calls[i]? = some call →
      (call.point = .written .nothing → ∀ id, .delete id ∈ call.writes →
        ∀ r ∈ w.rows.rows, r.id = id → r.isActive = false) ∧
      ∀ id, call.point = .committed id → w.rows.find? id ≠ none
  | .fail i, _ => ∀ call, w.calls[i]? = some call → ∀ id, call.point ≠ .committed id

-- No two transactions hold a lock on one row, or an entry for an active row.
structure Apart (a b : Call) : Prop where
  locks : ∀ x ∈ a.writes, ∀ y ∈ b.writes, x.locks ≠ none → x.locks ≠ y.locks
  active : ∀ x ∈ a.writes, ∀ y ∈ b.writes, ¬(x.activates = true ∧ y.activates = true)

def Deactivates (x : Write) : Prop := ∃ id, x = .setActive id false

def Ready (rows : AIProviderConfigTable) (call : Call) : Prop :=
  match call.point with
  | .createDecided _ makeActive => call.writes = [] ∧ (makeActive = false → rows.rows ≠ [])
  | .activateCleared _ => ∃ id, call.writes = [.setActive id false]
  | .written .created => ∃ request isActive, call.writes = [.insert request isActive] ∧
      (isActive = false → rows.rows ≠ [])
  | .written (.row id) => (∃ request, call.writes = [.update id request]) ∨
      ∃ cleared, call.writes = cleared ++ [.setActive id true] ∧ ∀ x ∈ cleared, Deactivates x
  | .written .nothing => ∃ id, call.writes = [.delete id]
  | _ => call.writes = []

-- The row that a transaction activates is there, and it deactivates every other.
def Winning (rows : AIProviderConfigTable) (call : Call) : Prop :=
  ∀ x ∈ call.writes, x.activates = true → (∀ id, x.locks = some id → rows.find? id ≠ none) ∧
    ∀ r ∈ rows.rows, r.isActive = true → x.locks ≠ some r.id → .setActive r.id false ∈ call.writes

structure Inv (w : World) : Prop where
  verified : ∀ r ∈ w.rows.rows, r.isVerified = true
  oneActive : w.rows.rows ≠ [] → HasActive w.rows
  apart : AllApart Apart w.calls
  ready : ∀ call ∈ w.calls, Ready w.rows call
  winning : ∀ call ∈ w.calls, Winning w.rows call

section Writes

variable {rows : AIProviderConfigTable} {x : Write} {ws : List Write} {r : AIProviderConfig}

theorem apart_symm {a b : Call} (h : Apart a b) : Apart b a := by
  refine ⟨fun x hx y hy hlock heq => ?_, fun x hx y hy hboth => ?_⟩
  · exact h.locks y hy x hx (heq ▸ hlock) heq.symm
  · exact h.active y hy x hx hboth.symm

theorem apart_nil (point : Point) (b : Call) : Apart ⟨point, []⟩ b :=
  ⟨by simp, by simp⟩

theorem mem_apply (hr : r ∈ rows.rows) (hfree : x.locks ≠ some r.id) : r ∈ (x.apply rows).rows := by
  cases x with
  | insert request isActive => exact List.mem_append_left _ hr
  | update id request =>
    have hne : r.id ≠ id := fun heq => hfree (congrArg some heq.symm)
    exact List.mem_map.mpr ⟨r, hr, by simp [updateRow, hne]⟩
  | setActive id isActive =>
    have hne : r.id ≠ id := fun heq => hfree (congrArg some heq.symm)
    exact List.mem_map.mpr ⟨r, hr, by simp [setActiveRow, hne]⟩
  | delete id =>
    have hne : r.id ≠ id := fun heq => hfree (congrArg some heq.symm)
    exact List.mem_filter.mpr ⟨hr, by simpa using hne⟩

theorem active_of_apply (hx : x.activates = false) (hr : r ∈ (x.apply rows).rows)
    (hactive : r.isActive = true) :
    ∃ old ∈ rows.rows, old.id = r.id ∧ old.isActive = true := by
  cases x with
  | insert request isActive =>
    rcases List.mem_append.mp hr with hold | hnew
    · exact ⟨r, hold, rfl, hactive⟩
    · obtain rfl := List.mem_singleton.mp hnew
      exact absurd (hactive.symm.trans hx) (by simp)
  | update id request =>
    obtain ⟨old, hold, rfl⟩ := List.mem_map.mp hr
    refine ⟨old, hold, (Write.updateRow_id id request old).symm, ?_⟩
    unfold updateRow at hactive
    split_ifs at hactive <;> exact hactive
  | setActive id isActive =>
    obtain ⟨old, hold, rfl⟩ := List.mem_map.mp hr
    refine ⟨old, hold, (Write.setActiveRow_id id isActive old).symm, ?_⟩
    unfold setActiveRow at hactive
    split_ifs at hactive
    · exact absurd (hactive.symm.trans hx) (by simp)
    · exact hactive
  | delete id => exact ⟨r, (List.mem_filter.mp hr).1, rfl, hactive⟩

theorem verified_apply (h : ∀ r ∈ rows.rows, r.isVerified = true) :
    ∀ r ∈ (x.apply rows).rows, r.isVerified = true := by
  intro r hr
  cases x with
  | insert request isActive =>
    rcases List.mem_append.mp hr with hold | hnew
    · exact h r hold
    · obtain rfl := List.mem_singleton.mp hnew
      rfl
  | update id request =>
    obtain ⟨old, hold, rfl⟩ := List.mem_map.mp hr
    unfold updateRow
    split_ifs
    · rfl
    · exact h old hold
  | setActive id isActive =>
    obtain ⟨old, hold, rfl⟩ := List.mem_map.mp hr
    unfold setActiveRow
    split_ifs <;> exact h old hold
  | delete id => exact h r (List.mem_filter.mp hr).1

theorem mem_applyAll (hr : r ∈ rows.rows) (hfree : ∀ x ∈ ws, x.locks ≠ some r.id) :
    r ∈ (ws.foldl Write.apply rows).rows := by
  induction ws generalizing rows with
  | nil => exact hr
  | cons x rest ih =>
    rw [List.forall_mem_cons] at hfree
    exact ih (mem_apply hr hfree.1) hfree.2

theorem active_of_applyAll (hws : ∀ x ∈ ws, x.activates = false)
    (hr : r ∈ (ws.foldl Write.apply rows).rows) (hactive : r.isActive = true) :
    ∃ old ∈ rows.rows, old.id = r.id ∧ old.isActive = true := by
  induction ws generalizing rows with
  | nil => exact ⟨r, hr, rfl, hactive⟩
  | cons x rest ih =>
    rw [List.forall_mem_cons] at hws
    obtain ⟨mid, hmid, hid, hmidActive⟩ := ih hws.2 hr
    obtain ⟨old, hold, hold_id, holdActive⟩ := active_of_apply hws.1 hmid hmidActive
    exact ⟨old, hold, hold_id.trans hid, holdActive⟩

theorem verified_applyAll (h : ∀ r ∈ rows.rows, r.isVerified = true) :
    ∀ r ∈ (ws.foldl Write.apply rows).rows, r.isVerified = true := by
  induction ws generalizing rows with
  | nil => exact h
  | cons x rest ih => exact ih (verified_apply h)

theorem inactive_of_cleared (hws : ∀ x ∈ ws, Deactivates x) {id : Uuid}
    (hmem : .setActive id false ∈ ws) (hr : r ∈ (ws.foldl Write.apply rows).rows)
    (hid : r.id = id) : r.isActive = false := by
  induction ws generalizing rows with
  | nil => simp at hmem
  | cons x rest ih =>
    rw [List.forall_mem_cons] at hws
    by_cases hrest : .setActive id false ∈ rest
    · exact ih hws.2 hrest hr
    · obtain rfl : x = .setActive id false := by
        rcases List.mem_cons.mp hmem with h | h
        · exact h.symm
        · exact absurd h hrest
      by_contra hactive
      rw [Bool.not_eq_false] at hactive
      have hquiet : ∀ y ∈ rest, y.activates = false := by
        intro y hy
        obtain ⟨_, rfl⟩ := hws.2 y hy
        rfl
      obtain ⟨old, hold, hold_id, holdActive⟩ := active_of_applyAll hquiet hr hactive
      obtain ⟨older, -, rfl⟩ := List.mem_map.mp hold
      rw [Write.setActiveRow_id] at hold_id
      simp [setActiveRow, hold_id.trans hid] at holdActive

end Writes

section Commits

variable {rows : AIProviderConfigTable}

theorem hasActive_activated {cleared : List Write} {id : Uuid}
    (hverified : ∀ r ∈ rows.rows, r.isVerified = true)
    (hcleared : ∀ x ∈ cleared, Deactivates x) (hthere : rows.find? id ≠ none)
    (hothers : ∀ r ∈ rows.rows, r.isActive = true → r.id ≠ id → .setActive r.id false ∈ cleared) :
    HasActive ((cleared ++ [Write.setActive id true]).foldl Write.apply rows) := by
  rw [List.foldl_append]
  have hquiet : ∀ x ∈ cleared, x.activates = false := by
    intro x hx
    obtain ⟨_, rfl⟩ := hcleared x hx
    rfl
  have hkept : ∃ r ∈ (cleared.foldl Write.apply rows).rows, r.id = id := by
    obtain ⟨old, hold⟩ := Option.ne_none_iff_exists'.mp hthere
    obtain ⟨hmem, hid⟩ := (Table.find?_eq_some _ _ _).mp hold
    clear hothers hquiet hverified
    induction cleared generalizing rows old with
    | nil => exact ⟨old, hmem, hid⟩
    | cons x rest ih =>
      rw [List.forall_mem_cons] at hcleared
      obtain ⟨cid, rfl⟩ := hcleared.1
      have hnew : setActiveRow cid false old ∈ ((Write.setActive cid false).apply rows).rows :=
        List.mem_map_of_mem hmem
      have hnew_id := (Write.setActiveRow_id cid false old).trans hid
      have hfound := (Table.find?_eq_some _ _ _).mpr ⟨hnew, hnew_id⟩
      exact ih hcleared.2 (by simp [hfound]) _ hfound hnew hnew_id
  obtain ⟨r, hr, hid⟩ := hkept
  refine ⟨setActiveRow id true r, List.mem_map_of_mem hr, ?_, ?_, ?_⟩
  · simp [setActiveRow, hid]
  · have hr_verified := verified_applyAll hverified r hr
    simp [setActiveRow, hid, hr_verified]
  · intro s hs hactive
    obtain ⟨old, hold, rfl⟩ := List.mem_map.mp hs
    by_cases hold_id : old.id = id
    · rw [Table.eq_of_key_eq _ hold hr (hold_id.trans hid.symm)]
    · have hold_active : old.isActive = true := by
        simpa [setActiveRow, hold_id] using hactive
      obtain ⟨first, hfirst, hfirst_id, hfirst_active⟩ :=
        active_of_applyAll hquiet hold hold_active
      have hmem := hothers first hfirst hfirst_active (hfirst_id ▸ hold_id)
      have hinactive := inactive_of_cleared hcleared hmem hold hfirst_id.symm
      exact absurd (hold_active.symm.trans hinactive) (by simp)

theorem hasActive_updated {id : Uuid} {request : UpdateAIProviderRequest}
    (h : HasActive rows) : HasActive ((Write.update id request).apply rows) := by
  obtain ⟨r, hr, hactive, hverified, honly⟩ := h
  refine ⟨updateRow id request r, List.mem_map_of_mem hr, ?_, ?_, ?_⟩
  · unfold updateRow
    split_ifs <;> exact hactive
  · unfold updateRow
    split_ifs
    · rfl
    · exact hverified
  · intro s hs hs_active
    obtain ⟨old, hold, rfl⟩ := List.mem_map.mp hs
    have hold_active : old.isActive = true := by
      unfold updateRow at hs_active
      split_ifs at hs_active <;> exact hs_active
    rw [honly old hold hold_active]

theorem hasActive_inserted {request : CreateAIProviderRequest} (h : HasActive rows) :
    HasActive ((Write.insert request false).apply rows) := by
  obtain ⟨r, hr, hactive, hverified, honly⟩ := h
  refine ⟨r, List.mem_append_left _ hr, hactive, hverified, fun s hs hs_active => ?_⟩
  rcases List.mem_append.mp hs with hold | hnew
  · exact honly s hold hs_active
  · obtain rfl := List.mem_singleton.mp hnew
    simp [Write.newRow] at hs_active

theorem hasActive_first {request : CreateAIProviderRequest} (h : rows.rows = []) :
    HasActive ((Write.insert request true).apply rows) := by
  have hrows : ((Write.insert request true).apply rows).rows =
      [Write.newRow request true rows.next] := by
    show rows.rows ++ _ = _
    rw [h, List.nil_append]
  refine ⟨_, hrows ▸ List.mem_singleton_self _, rfl, rfl, fun s hs _ => ?_⟩
  rw [hrows] at hs
  exact List.mem_singleton.mp hs

theorem hasActive_deleted_iff {id : Uuid} (h : HasActive rows) :
    HasActive ((Write.delete id).apply rows) ↔ ∀ r ∈ rows.rows, r.id = id → r.isActive = false := by
  obtain ⟨r, hr, hactive, hverified, honly⟩ := h
  constructor
  · rintro ⟨s, hs, hs_active, -, -⟩ row hrow hid
    obtain ⟨hs_mem, hs_id⟩ := List.mem_filter.mp hs
    have hs_ne : s.id ≠ id := by simpa using hs_id
    by_contra hrow_active
    rw [Bool.not_eq_false] at hrow_active
    rw [honly s hs_mem hs_active, ← honly row hrow hrow_active] at hs_ne
    exact hs_ne hid
  · intro hinactive
    have hne : r.id ≠ id := fun heq => by simp [hinactive r hr heq] at hactive
    refine ⟨r, List.mem_filter.mpr ⟨hr, by simpa using hne⟩, hactive, hverified, ?_⟩
    exact fun s hs => honly s (List.mem_filter.mp hs).1

theorem HasActive.ne_nil (h : HasActive rows) : rows.rows ≠ [] := by
  obtain ⟨r, hr, -⟩ := h
  exact List.ne_nil_of_mem hr

theorem commit_steady {answer : Answer} {writes : List Write}
    (hverified : ∀ r ∈ rows.rows, r.isVerified = true)
    (hactive : rows.rows ≠ [] → HasActive rows) (hready : Ready rows ⟨.written answer, writes⟩)
    (hwinning : Winning rows ⟨.written answer, writes⟩)
    (hcare : answer = .nothing → ∀ id, .delete id ∈ writes →
      ∀ r ∈ rows.rows, r.id = id → r.isActive = false) :
    (rows.rows = [] ∧ (writes.foldl Write.apply rows).rows = []) ∨
      HasActive (writes.foldl Write.apply rows) := by
  cases answer with
  | created =>
    obtain ⟨request, isActive, rfl, hothers⟩ := hready
    cases isActive with
    | true =>
      have hempty : rows.rows = [] := by
        by_contra hne
        obtain ⟨r, hr, hr_active, -⟩ := hactive hne
        have hmem := (hwinning _ (List.mem_singleton_self _) rfl).2 r hr hr_active
          (by simp [Write.locks])
        simp at hmem
      exact .inr (hasActive_first hempty)
    | false => exact .inr (hasActive_inserted (hactive (hothers rfl)))
  | row id =>
    rcases hready with ⟨request, rfl⟩ | ⟨cleared, rfl, hcleared⟩
    · by_cases hempty : rows.rows = []
      · have hafter : ((Write.update id request).apply rows).rows = [] := by
          show rows.rows.map _ = []
          rw [hempty, List.map_nil]
        exact .inl ⟨hempty, hafter⟩
      · exact .inr (hasActive_updated (hactive hempty))
    · obtain ⟨hthere, hothers⟩ := hwinning (.setActive id true) (by simp) rfl
      refine .inr (hasActive_activated hverified hcleared (hthere id rfl) ?_)
      intro r hr hr_active hne
      have hlock : (Write.setActive id true).locks ≠ some r.id :=
        fun heq => hne (Option.some.inj heq).symm
      simpa using hothers r hr hr_active hlock
  | nothing =>
    obtain ⟨id, rfl⟩ := hready
    by_cases hempty : rows.rows = []
    · have hafter : ((Write.delete id).apply rows).rows = [] := by
        show rows.rows.filter _ = []
        rw [hempty, List.filter_nil]
      exact .inl ⟨hempty, hafter⟩
    · exact .inr ((hasActive_deleted_iff (hactive hempty)).mpr
        (hcare rfl id (List.mem_singleton_self _)))

theorem ready_commit {a b : Call}
    (hne : rows.rows ≠ [] → (a.writes.foldl Write.apply rows).rows ≠ []) (h : Ready rows b) :
    Ready (a.writes.foldl Write.apply rows) b := by
  obtain ⟨point, writes⟩ := b
  cases point with
  | createDecided request makeActive => exact ⟨h.1, fun hfalse => hne (h.2 hfalse)⟩
  | written answer =>
    cases answer with
    | created =>
      obtain ⟨request, isActive, hwrites, hothers⟩ := h
      exact ⟨request, isActive, hwrites, fun hfalse => hne (hothers hfalse)⟩
    | row id => exact h
    | nothing => exact h
  | _ => exact h

theorem winning_commit {a b : Call} (hapart : Apart b a) (h : Winning rows b) :
    Winning (a.writes.foldl Write.apply rows) b := by
  intro x hx hx_active
  obtain ⟨hthere, hothers⟩ := h x hx hx_active
  have hquiet : ∀ y ∈ a.writes, y.activates = false := by
    intro y hy
    rw [← Bool.not_eq_true]
    exact fun hy_active => hapart.active x hx y hy ⟨hx_active, hy_active⟩
  refine ⟨fun id hid => ?_, fun r hr hr_active hlock => ?_⟩
  · obtain ⟨row, hrow⟩ := Option.ne_none_iff_exists'.mp (hthere id hid)
    obtain ⟨hmem, hrow_id⟩ := (Table.find?_eq_some _ _ _).mp hrow
    have hfree : ∀ y ∈ a.writes, y.locks ≠ some row.id := by
      intro y hy heq
      exact hapart.locks x hx y hy (by simp [hid]) (by rw [hid, heq, hrow_id])
    have hfound := (Table.find?_eq_some _ _ _).mpr ⟨mem_applyAll hmem hfree, hrow_id⟩
    simp [hfound]
  · obtain ⟨old, hold, hold_id, hold_active⟩ := active_of_applyAll hquiet hr hr_active
    rw [← hold_id]
    exact hothers old hold hold_active (hold_id ▸ hlock)

end Commits

section Moves

variable {w t : World} {i : ℕ} {call : Call}

theorem inv_move (h : Inv w) (moved : Call) (hready : Ready w.rows moved)
    (hwinning : Winning w.rows moved)
    (hapart : ∀ j b, i ≠ j → w.calls[j]? = some b → Apart moved b) :
    Inv (moveTo w i moved.point moved.writes) where
  verified := h.verified
  oneActive := h.oneActive
  apart := h.apart.set (fun _ _ => apart_symm) hapart
  ready := by
    intro x hx
    rcases mem_of_mem_set hx with rfl | hx
    · exact hready
    · exact h.ready x hx
  winning := by
    intro x hx
    rcases mem_of_mem_set hx with rfl | hx
    · exact hwinning
    · exact h.winning x hx

theorem inv_rest (h : Inv w) (point : Point) (hready : Ready w.rows ⟨point, []⟩) :
    Inv (moveTo w i point []) :=
  inv_move h ⟨point, []⟩ hready (by simp [Winning]) fun _ b _ _ => apart_nil point b

theorem mem_others {j : ℕ} {b : Call} (hij : i ≠ j) (hj : w.calls[j]? = some b) {x : Write}
    (hx : x ∈ b.writes) : x ∈ others w i :=
  List.mem_flatMap.mpr ⟨b, List.mem_eraseIdx_iff_getElem?.mpr ⟨j, hij.symm, hj⟩, hx⟩

theorem done_apart {write : Write} (hwaits : waits w i call write = false) {x : Write}
    (hx : x ∈ others w i) :
    (write.locks ≠ none → write.locks ≠ x.locks) ∧
      ¬(write.activates = true ∧ x.activates = true) := by
  simp only [waits, decide_eq_false_iff_not, not_or, Bool.not_eq_true, List.any_eq_false] at hwaits
  obtain ⟨hlock, hothers, -⟩ := hwaits
  constructor
  · intro hsome heq
    obtain ⟨id, hid⟩ := Option.ne_none_iff_exists'.mp hsome
    have hlocked : isLocked w i id = true :=
      List.any_eq_true.mpr ⟨x, hx, by simpa [hid] using heq.symm⟩
    simp [hid, hlocked] at hlock
  · rintro ⟨hactivates, hx_active⟩
    have hother := hothers x hx
    simp [hactivates, hx_active] at hother

theorem done_winning {write : Write} (hrefused : refused w call write = false)
    (hactive : write.activates = true) :
    (∀ id, write.locks = some id → w.rows.find? id ≠ none) ∧
      ∀ r ∈ w.rows.rows, r.isActive = true → write.locks ≠ some r.id →
        .setActive r.id false ∈ call.writes := by
  have hopen : ¬((write.locks.any fun id => w.rows.find? id = none) ∨
      rivals w call write ≠ []) := by
    cases write with
    | delete id => simp [Write.activates] at hactive
    | _ => simpa [refused] using hrefused
  rw [not_or, not_not] at hopen
  obtain ⟨hthere, hrivals⟩ := hopen
  refine ⟨fun id hid hgone => hthere (by simp [hid, hgone]), fun r hr hr_active hlock => ?_⟩
  by_contra hnot
  have hrival : r ∈ rivals w call write :=
    List.mem_filter.mpr ⟨hr, by simp [hactive, hr_active, hlock, hnot]⟩
  rw [hrivals] at hrival
  exact List.not_mem_nil hrival

theorem submit_cases {write : Write} {message : String} {point : Point}
    (hsubmit : submit w i call write message point = some t) :
    t = raise w i message ∨
      (t = moveTo w i point (call.writes ++ [write]) ∧ waits w i call write = false ∧
        refused w call write = false) := by
  unfold submit at hsubmit
  split_ifs at hsubmit with hwaits hrefused
  · exact .inl (Option.some.inj hsubmit).symm
  · rw [Bool.not_eq_true] at hwaits hrefused
    exact .inr ⟨(Option.some.inj hsubmit).symm, hwaits, hrefused⟩

theorem inv_submit (h : Inv w) (hi : w.calls[i]? = some call) {write : Write} {message : String}
    {point : Point} (hsubmit : submit w i call write message point = some t)
    (hready : Ready w.rows ⟨point, call.writes ++ [write]⟩) : Inv t := by
  rcases submit_cases hsubmit with rfl | ⟨rfl, hwaits, hrefused⟩
  · exact inv_rest h _ rfl
  have hold := h.winning call (List.mem_of_getElem? hi)
  refine inv_move h ⟨point, call.writes ++ [write]⟩ hready ?_ ?_
  · intro x hx hx_active
    have hkept {y : Write} (hy : y ∈ call.writes) : y ∈ call.writes ++ [write] :=
      List.mem_append_left _ hy
    rcases List.mem_append.mp hx with hx | hx
    · obtain ⟨hthere, hothers⟩ := hold x hx hx_active
      exact ⟨hthere, fun r hr hr_active hlock => hkept (hothers r hr hr_active hlock)⟩
    · obtain rfl := List.mem_singleton.mp hx
      obtain ⟨hthere, hothers⟩ := done_winning hrefused hx_active
      exact ⟨hthere, fun r hr hr_active hlock => hkept (hothers r hr hr_active hlock)⟩
  · intro j b hij hj
    have hpair := h.apart i j call b hij hi hj
    constructor
    · intro x hx y hy hlock
      rcases List.mem_append.mp hx with hx | hx
      · exact hpair.locks x hx y hy hlock
      · obtain rfl := List.mem_singleton.mp hx
        exact (done_apart hwaits (mem_others hij hj hy)).1 hlock
    · intro x hx y hy
      rcases List.mem_append.mp hx with hx | hx
      · exact hpair.active x hx y hy
      · obtain rfl := List.mem_singleton.mp hx
        exact (done_apart hwaits (mem_others hij hj hy)).2

theorem inv_commit (h : Inv w) (hi : w.calls[i]? = some call) (point : Point)
    (hready : ∀ rows, Ready rows ⟨point, []⟩)
    (hsteady : (w.rows.rows = [] ∧ (call.writes.foldl Write.apply w.rows).rows = []) ∨
      HasActive (call.writes.foldl Write.apply w.rows)) :
    Inv (moveTo { w with rows := call.writes.foldl Write.apply w.rows } i point []) := by
  have hne : w.rows.rows ≠ [] → (call.writes.foldl Write.apply w.rows).rows ≠ [] := by
    rcases hsteady with ⟨hempty, -⟩ | hactive
    · exact fun hrows => absurd hempty hrows
    · exact fun _ => hactive.ne_nil
  constructor
  · exact verified_applyAll h.verified
  · rcases hsteady with ⟨-, hempty⟩ | hactive
    · exact fun hrows => absurd hempty hrows
    · exact fun _ => hactive
  · exact h.apart.set (fun _ _ => apart_symm) fun _ b _ _ => apart_nil point b
  · intro x hx
    rcases mem_set_other hx with rfl | ⟨j, hij, hj⟩
    · exact hready _
    · exact ready_commit hne (h.ready x (List.mem_of_getElem? hj))
  · intro x hx
    rcases mem_set_other hx with rfl | ⟨j, hij, hj⟩
    · simp [Winning]
    · exact winning_commit (h.apart j i x call hij.symm hj hi)
        (h.winning x (List.mem_of_getElem? hj))

theorem submit_moves {write : Write} {message : String} {point : Point}
    (hsubmit : submit w i call write message point = some t) :
    ∃ moved : Call, t = moveTo w i moved.point moved.writes := by
  rcases submit_cases hsubmit with rfl | ⟨rfl, -, -⟩
  · exact ⟨⟨.raised (some message), []⟩, rfl⟩
  · exact ⟨⟨point, call.writes ++ [write]⟩, rfl⟩

theorem advance_before (h : Inv w) (hi : w.calls[i]? = some call)
    (hwritten : ∀ answer, call.point ≠ .written answer)
    (hcommitted : ∀ id, call.point ≠ .committed id)
    (hadvance : advance w i call = some t) :
    Inv t ∧ ∃ moved : Call, t = moveTo w i moved.point moved.writes := by
  have hready := h.ready call (List.mem_of_getElem? hi)
  obtain ⟨point, writes⟩ := call
  have hstay {point : Point} (ht : some (moveTo w i point []) = some t)
      (hpoint : Ready w.rows ⟨point, []⟩) :
      Inv t ∧ ∃ moved : Call, t = moveTo w i moved.point moved.writes := by
    cases ht
    exact ⟨inv_rest h point hpoint, ⟨point, []⟩, rfl⟩
  cases point with
  | createStart request =>
    simp only [advance] at hadvance
    split_ifs at hadvance
    · exact hstay hadvance rfl
    · exact hstay hadvance rfl
  | createVerified request =>
    refine hstay hadvance ⟨rfl, fun hinactive => ?_⟩
    -- an active row was read
    have hsome : getActive w ≠ none := by simpa using hinactive
    obtain ⟨row, hrow⟩ := Option.ne_none_iff_exists'.mp hsome
    exact List.ne_nil_of_mem (List.mem_of_find?_eq_some hrow)
  | createDecided request makeActive =>
    obtain ⟨rfl, hothers⟩ := hready
    exact ⟨inv_submit h hi hadvance ⟨request, makeActive, rfl, hothers⟩, submit_moves hadvance⟩
  | updateStart id request =>
    simp only [advance] at hadvance
    cases hfind : w.rows.find? id with
    | none =>
      rw [hfind] at hadvance
      exact hstay hadvance rfl
    | some row =>
      rw [hfind] at hadvance
      exact hstay hadvance rfl
  | updateLoaded id request =>
    obtain rfl : writes = [] := hready
    exact ⟨inv_submit h hi hadvance (.inl ⟨request, rfl⟩), submit_moves hadvance⟩
  | activateStart id =>
    simp only [advance] at hadvance
    cases hfind : w.rows.find? id with
    | none =>
      rw [hfind] at hadvance
      exact hstay hadvance rfl
    | some row =>
      rw [hfind] at hadvance
      dsimp only at hadvance
      split_ifs at hadvance
      · exact hstay hadvance rfl
      · exact hstay hadvance rfl
      · exact hstay hadvance rfl
  | activateLoaded id => exact hstay hadvance rfl
  | activateCurrent id current =>
    obtain rfl : writes = [] := hready
    simp only [advance] at hadvance
    cases hother : current.filter (· ≠ id) with
    | none =>
      rw [hother] at hadvance
      exact ⟨inv_submit h hi hadvance (.inr ⟨[], rfl, by simp⟩), submit_moves hadvance⟩
    | some currentId =>
      rw [hother] at hadvance
      exact ⟨inv_submit h hi hadvance ⟨currentId, rfl⟩, submit_moves hadvance⟩
  | activateCleared id =>
    obtain ⟨currentId, rfl⟩ : ∃ currentId, writes = [.setActive currentId false] := hready
    have hcleared : ∀ x ∈ [Write.setActive currentId false], Deactivates x := by
      intro x hx
      exact ⟨currentId, List.mem_singleton.mp hx⟩
    exact ⟨inv_submit h hi hadvance (.inr ⟨_, rfl, hcleared⟩), submit_moves hadvance⟩
  | deleteStart id =>
    simp only [advance] at hadvance
    cases hfind : w.rows.find? id with
    | none =>
      rw [hfind] at hadvance
      exact hstay hadvance rfl
    | some row =>
      rw [hfind] at hadvance
      exact hstay hadvance rfl
  | deleteLoaded id isActive =>
    simp only [advance] at hadvance
    split_ifs at hadvance
    · exact hstay hadvance rfl
    · exact hstay hadvance rfl
    · exact hstay hadvance rfl
  | deleteCounted id =>
    obtain rfl : writes = [] := hready
    exact ⟨inv_submit h hi hadvance ⟨id, rfl⟩, submit_moves hadvance⟩
  | written answer => exact absurd rfl (hwritten answer)
  | committed id => exact absurd rfl (hcommitted id)
  | returned => simp [advance] at hadvance
  | raised message => simp [advance] at hadvance

theorem advance_written {answer : Answer} {writes : List Write}
    (hadvance : advance w i ⟨.written answer, writes⟩ = some t) :
    ∃ point, (∀ message, point ≠ .raised message) ∧ (∀ rows, Ready rows ⟨point, []⟩) ∧
      t = moveTo { w with rows := writes.foldl Write.apply w.rows } i point [] := by
  cases answer with
  | created =>
    exact ⟨.committed w.rows.next, by simp, fun _ => rfl, (Option.some.inj hadvance).symm⟩
  | row id => exact ⟨.committed id, by simp, fun _ => rfl, (Option.some.inj hadvance).symm⟩
  | nothing => exact ⟨.returned, by simp, fun _ => rfl, (Option.some.inj hadvance).symm⟩

theorem moveTo_calls (hi : w.calls[i]? = some call) (point : Point) (writes : List Write) (j : ℕ) :
    (moveTo w i point writes).calls[j]? =
      if i = j then some ⟨point, writes⟩ else w.calls[j]? := by
  obtain ⟨hlt, -⟩ := List.getElem?_eq_some_iff.mp hi
  by_cases hij : i = j
  · subst hij
    rw [if_pos rfl]
    exact List.getElem?_set_self hlt
  · rw [if_neg hij]
    exact List.getElem?_set_ne hij

theorem raisesCleanly_moveTo (rows : AIProviderConfigTable) (hi : w.calls[i]? = some call)
    (point : Point) (writes : List Write)
    (hraised : (∃ message, point = .raised message) →
      rows = w.rows ∧ ∀ id, call.point ≠ .committed id) :
    ∀ (j : ℕ) (b b' : Call), w.calls[j]? = some b →
      (moveTo { w with rows := rows } i point writes).calls[j]? = some b' → b' ≠ b →
        (∃ message, b'.point = .raised message) →
          rows = w.rows ∧ ∀ id, b.point ≠ .committed id := by
  intro j b b' hb hb' hne hmessage
  rw [moveTo_calls (w := { w with rows := rows }) hi] at hb'
  by_cases hij : i = j
  · subst hij
    rw [if_pos rfl] at hb'
    cases hb'
    cases hi.symm.trans hb
    exact hraised hmessage
  · rw [if_neg hij] at hb'
    exact absurd (Option.some.inj (hb'.symm.trans hb)) hne

end Moves

section Steps

variable {w t : World} {i : ℕ} {call : Call}

theorem advance_committed {id : Uuid} {writes : List Write}
    (hadvance : advance w i ⟨.committed id, writes⟩ = some t) :
    (w.rows.find? id = none ∧ t = moveTo w i (.raised none) []) ∨
      (w.rows.find? id ≠ none ∧ t = moveTo w i .returned []) := by
  simp only [advance] at hadvance
  cases hfind : w.rows.find? id with
  | none =>
    rw [hfind] at hadvance
    exact .inl ⟨rfl, (Option.some.inj hadvance).symm⟩
  | some row =>
    rw [hfind] at hadvance
    exact .inr ⟨by simp, (Option.some.inj hadvance).symm⟩

theorem advance_spec (h : Inv w) (hi : w.calls[i]? = some call)
    (hadvance : advance w i call = some t) :
    (Promise w t ↔ Careful w (.advance i) t) ∧ (Careful w (.advance i) t → Inv t) := by
  have hcareful (hcall : (call.point = .written .nothing → ∀ id, .delete id ∈ call.writes →
      ∀ r ∈ w.rows.rows, r.id = id → r.isActive = false) ∧
      ∀ id, call.point = .committed id → w.rows.find? id ≠ none) : Careful w (.advance i) t := by
    intro b hb
    cases hi.symm.trans hb
    exact hcall
  have hready := h.ready call (List.mem_of_getElem? hi)
  have hwinning := h.winning call (List.mem_of_getElem? hi)
  by_cases hwritten : ∃ answer, call.point = .written answer
  · obtain ⟨answer, hanswer⟩ := hwritten
    obtain ⟨point, writes⟩ := call
    obtain rfl : point = .written answer := hanswer
    obtain ⟨next, hnext, hnext_ready, rfl⟩ := advance_written hadvance
    have hpromise (hsteady : (w.rows.rows = [] ∧ (writes.foldl Write.apply w.rows).rows = []) ∨
        HasActive (writes.foldl Write.apply w.rows)) :
        Promise w (moveTo { w with rows := writes.foldl Write.apply w.rows } i next []) := by
      have hinv := inv_commit h hi next hnext_ready hsteady
      refine ⟨hinv.oneActive, ?_, ?_⟩
      · rcases hsteady with ⟨hempty, -⟩ | hactive
        · exact fun hne => absurd hempty hne
        · exact fun _ => hactive.ne_nil
      · refine raisesCleanly_moveTo _ hi next [] fun hraised => ?_
        obtain ⟨message, hmessage⟩ := hraised
        exact absurd hmessage (hnext message)
    have hcommit {s : World} (hcare : Careful w (.advance i) s) :=
      commit_steady h.verified h.oneActive hready hwinning
        fun hnothing => (hcare _ hi).1 (congrArg Point.written hnothing)
    refine ⟨⟨fun hpromised => hcareful ⟨fun hnothing id hid => ?_, by simp⟩, fun hcare =>
      hpromise (hcommit hcare)⟩, fun hcare => inv_commit h hi next hnext_ready (hcommit hcare)⟩
    obtain rfl : answer = .nothing := Point.written.inj hnothing
    obtain ⟨deleted, rfl⟩ := hready
    obtain rfl : id = deleted := by simpa using hid
    by_cases hempty : w.rows.rows = []
    · intro r hr
      rw [hempty] at hr
      simp at hr
    · have hactive : HasActive ((Write.delete id).apply w.rows) :=
        hpromised.oneActive (hpromised.neverEmptied hempty)
      exact (hasActive_deleted_iff (h.oneActive hempty)).mp hactive
  by_cases hcommitted : ∃ id, call.point = .committed id
  · obtain ⟨id, hid⟩ := hcommitted
    obtain ⟨point, writes⟩ := call
    obtain rfl : point = .committed id := hid
    rcases advance_committed hadvance with ⟨hgone, rfl⟩ | ⟨hthere, rfl⟩
    · have hcareless : ¬Careful w (.advance i) (moveTo w i (.raised none) []) :=
        fun hcare => (hcare _ hi).2 id rfl hgone
      refine ⟨iff_of_false (fun hpromised => ?_) hcareless, fun hcare => absurd hcare hcareless⟩
      have hmoved := moveTo_calls hi (.raised none) [] i
      rw [if_pos rfl] at hmoved
      exact (hpromised.raisesCleanly i _ _ hi hmoved (by simp) ⟨none, rfl⟩).2 id rfl
    · have hinv := inv_rest (i := i) h .returned rfl
      refine ⟨iff_of_true ⟨hinv.oneActive, fun hne => hne, ?_⟩
        (hcareful ⟨by simp, ?_⟩), fun _ => hinv⟩
      · exact raisesCleanly_moveTo w.rows hi .returned [] (by simp)
      · rintro other hother
        obtain rfl := Point.committed.inj hother
        exact hthere
  · rw [not_exists] at hwritten hcommitted
    obtain ⟨hinv, moved, rfl⟩ := advance_before h hi hwritten hcommitted hadvance
    refine ⟨iff_of_true ⟨hinv.oneActive, fun hne => hne, ?_⟩ (hcareful ⟨?_, ?_⟩), fun _ => hinv⟩
    · exact raisesCleanly_moveTo w.rows hi _ _ fun _ => ⟨rfl, hcommitted⟩
    · exact fun hpoint => absurd hpoint (hwritten _)
    · exact fun id hpoint => absurd hpoint (hcommitted id)

theorem fail_moves (hfail : fail w i call = some t) : t = moveTo w i (.raised none) [] := by
  obtain ⟨point, writes⟩ := call
  unfold fail at hfail
  cases point with
  | returned => simp at hfail
  | raised message => simp at hfail
  | _ => exact (Option.some.inj hfail).symm

theorem fail_spec (h : Inv w) (hi : w.calls[i]? = some call) (hfail : fail w i call = some t) :
    (Promise w t ↔ Careful w (.fail i) t) ∧ Inv t := by
  obtain rfl := fail_moves hfail
  have hinv := inv_rest (i := i) h (.raised none) rfl
  refine ⟨⟨fun hpromised b hb => ?_, fun hcare => ?_⟩, hinv⟩
  · cases hi.symm.trans hb
    have hmoved := moveTo_calls hi (.raised none) [] i
    rw [if_pos rfl] at hmoved
    have hrunning : (⟨.raised none, []⟩ : Call) ≠ call := by
      rintro rfl
      simp [fail] at hfail
    exact (hpromised.raisesCleanly i _ _ hi hmoved hrunning ⟨none, rfl⟩).2
  · refine ⟨hinv.oneActive, fun hne => hne, ?_⟩
    exact raisesCleanly_moveTo w.rows hi _ _ fun _ => ⟨rfl, hcare call hi⟩

theorem begin_spec (h : Inv w) (operation : Operation) :
    let t : World := { w with calls := w.calls ++ [⟨operation.start, []⟩] }
    Promise w t ∧ Inv t := by
  have hready : Ready w.rows ⟨operation.start, []⟩ := by
    cases operation <;> rfl
  have hmem {b : Call} (hb : b ∈ w.calls ++ [⟨operation.start, []⟩]) :
      b ∈ w.calls ∨ b = ⟨operation.start, []⟩ := by
    simpa using hb
  refine ⟨⟨h.oneActive, fun hne => hne, ?_⟩, ?_⟩
  · intro j b b' hb hb' hne
    obtain ⟨hlt, -⟩ := List.getElem?_eq_some_iff.mp hb
    rw [List.getElem?_append_left hlt, hb] at hb'
    exact absurd (Option.some.inj hb').symm hne
  · constructor
    · exact h.verified
    · exact h.oneActive
    · exact h.apart.hire (fun _ _ => apart_symm) fun b _ => apart_nil operation.start b
    · intro b hb
      rcases hmem hb with hb | rfl
      · exact h.ready b hb
      · exact hready
    · intro b hb
      rcases hmem hb with hb | rfl
      · exact h.winning b hb
      · simp [Winning]

theorem step_spec (h : Inv w) {event : Event} (hstep : Step w event t) :
    (Promise w t ↔ Careful w event t) ∧ (Careful w event t → Inv t) := by
  cases event with
  | begin operation =>
    cases hstep
    obtain ⟨hpromise, hinv⟩ := begin_spec h operation
    exact ⟨iff_of_true hpromise trivial, fun _ => hinv⟩
  | advance i =>
    obtain ⟨call, hi, hadvance⟩ := Option.bind_eq_some_iff.mp hstep
    exact advance_spec h hi hadvance
  | fail i =>
    obtain ⟨call, hi, hfail⟩ := Option.bind_eq_some_iff.mp hstep
    obtain ⟨hiff, hinv⟩ := fail_spec h hi hfail
    exact ⟨hiff, fun _ => hinv⟩

theorem inv_empty : Inv World.empty where
  verified := by simp [World.empty, Table.empty]
  oneActive := by simp [World.empty, Table.empty]
  apart := allApart_nil
  ready := by simp [World.empty]
  winning := by simp [World.empty]

end Steps

-- Over any interleaving of calls the promise is kept exactly if no deletion
-- commits on the active row and no committed call loses its row.
theorem one_active_iff (path : List (Event × World)) (hp : Path Step World.empty path) :
    EveryStep (fun w _ t => Promise w t) World.empty path ↔ EveryStep Careful World.empty path :=
  hp.everyStep_iff_of inv_empty (fun _ _ _ h hcare hstep => (step_spec h hstep).2 hcare)
    fun _ _ _ h hstep => (step_spec h hstep).1

def gemini : CreateAIProviderRequest := ⟨"GOOGLE", "gemini-2.5-flash", "aaaa"⟩
def gpt : CreateAIProviderRequest := ⟨"OPENAI", "gpt-4o", "bbbb"⟩

def run (events : List Event) : List (Event × World) := execute next World.empty events

theorem run_path (events : List Event) : Path Step World.empty (run events) :=
  execute_path next (fun _ _ _ h => h) World.empty events

def wholeCall (i : ℕ) : List Event := List.replicate 5 (.advance i)

def deletedWhileActivated : List Event :=
  [.begin (.create gemini)] ++ wholeCall 0 ++ [.begin (.create gpt)] ++ wholeCall 1 ++
    [.begin (.delete 1), .advance 2, .advance 2] ++ [.begin (.activate 1)] ++ wholeCall 3 ++
    [.advance 2, .advance 2]

-- The deletion takes the active row, and no provider is active.
theorem none_active_after_delete : ¬∀ path, Path Step World.empty path →
      EveryStep (fun w _ t => Promise w t) World.empty path := by
  intro hall
  have hlast : (final World.empty (run deletedWhileActivated)).rows.rows =
      [⟨0, "GOOGLE", "gemini-2.5-flash", "aaaa", false, true⟩] := by decide +kernel
  have hone : EveryStep (fun _ _ (t : World) => t.rows.rows ≠ [] → HasActive t.rows)
      World.empty (run deletedWhileActivated) :=
    (hall _ (run_path deletedWhileActivated)).imp fun _ _ _ h => h.oneActive
  obtain ⟨r, hr, hactive, -⟩ := hone.final inv_empty.oneActive (by rw [hlast]; simp)
  rw [hlast] at hr
  obtain rfl := List.mem_singleton.mp hr
  simp at hactive

theorem one_active_iff_first : EveryStep (fun w _ t => Promise w t) World.empty
      (run (.begin (.create gemini) :: wholeCall 0)) := by
  refine (one_active_iff _ (run_path _)).mpr ⟨trivial, ?_, ?_, ?_, ?_, ?_, trivial⟩
  all_goals
    intro call hcall
    cases hcall
  · exact ⟨by simp [Operation.start], by simp [Operation.start]⟩
  · exact ⟨by simp, by simp⟩
  · exact ⟨by simp, by simp⟩
  · exact ⟨by simp, by simp⟩
  · refine ⟨by simp, fun id hid => ?_⟩
    obtain rfl := Point.committed.inj hid
    decide

end AiHiring.AIProviders
