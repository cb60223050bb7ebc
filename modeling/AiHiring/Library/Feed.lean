import Mathlib.Tactic.Common

namespace AiHiring.Library

section Feed

variable {ε ν : Type*} (read : ε → Option ν)

-- The last value that a feed of events shows.
def lastShown (events : List ε) : Option ν := (events.filterMap read).getLast?

theorem lastShown_append (events more : List ε) :
    lastShown read (events ++ more) = (lastShown read more).or (lastShown read events) := by
  rw [lastShown, List.filterMap_append, List.getLast?_append]
  rfl

theorem lastShown_singleton (event : ε) : lastShown read [event] = read event := by
  cases h : read event with
  | none => simp [lastShown, h]
  | some value => simp [lastShown, h]

theorem lastShown_cons (event : ε) (events : List ε) :
    lastShown read (event :: events) = (lastShown read events).or (read event) := by
  rw [← List.singleton_append, lastShown_append, lastShown_singleton]

variable {read}

theorem lastShown_suffix {events more : List ε} {value : ν} (h : lastShown read more = some value) :
    lastShown read (events ++ more) = some value := by
  rw [lastShown_append, h, Option.some_or]

theorem lastShown_append_of_none {events more : List ε} (h : lastShown read more = none) :
    lastShown read (events ++ more) = lastShown read events := by
  rw [lastShown_append, h, Option.none_or]

theorem exists_shown {events : List ε} {value : ν} (h : lastShown read events = some value) :
    ∃ event ∈ events, read event = some value :=
  List.mem_filterMap.mp (List.mem_of_getLast? h)

theorem lastShown_of_agree {events : List ε} {value : ν} (hsome : ∃ event ∈ events,
    read event = some value)
    (hall : ∀ event ∈ events, ∀ other, read event = some other → other = value) :
    lastShown read events = some value := by
  cases hlast : lastShown read events with
  | none =>
    obtain ⟨event, hevent, hshows⟩ := hsome
    have hnil : events.filterMap read = [] := List.getLast?_eq_none_iff.mp hlast
    have hmem : value ∈ events.filterMap read := List.mem_filterMap.mpr ⟨event, hevent, hshows⟩
    rw [hnil] at hmem
    simp at hmem
  | some other =>
    obtain ⟨event, hevent, hshows⟩ := exists_shown hlast
    rw [hall event hevent other hshows]

-- An event may come before the waiting ones unless it was the last to show a value
-- and one of them shows another.
theorem lastShown_overtake {received waiting rest : List ε} {event : ε} {value : ν}
    (hlast : lastShown read (received ++ waiting ++ event :: rest) = some value)
    (hwaiting : read event = some value → lastShown read rest = none →
      ∀ other ∈ waiting, ∀ shown, read other = some shown → shown = value) :
    lastShown read (received ++ [event] ++ waiting ++ rest) = some value := by
  rw [lastShown_append, lastShown_cons] at hlast
  rw [lastShown_append]
  cases hrest : lastShown read rest with
  | some shown => simpa [hrest] using hlast
  | none =>
    rw [hrest, Option.none_or] at hlast
    rw [Option.none_or, lastShown_append, lastShown_append, lastShown_singleton]
    cases hevent : read event with
    | none =>
      rw [hevent, Option.none_or, lastShown_append] at hlast
      rw [Option.none_or]
      exact hlast
    | some shown =>
      rw [hevent, Option.some_or] at hlast
      cases hlast
      cases hnext : lastShown read waiting with
      | none => simp
      | some other =>
        obtain ⟨next, hmem, hshows⟩ := exists_shown hnext
        rw [hwaiting hevent hrest next hmem other hshows, Option.some_or]

end Feed

-- Notices in the order in which they were queued. A notice has a topic and a kind,
-- and of each kind a topic gets at most one.
section Mailbox

variable {ν κ ε : Type*} [DecidableEq κ] [DecidableEq ε] (topic : ν → κ) (kind : ν → ε)

def hasNotice (box : List ν) (k : κ) (e : ε) : Bool := box.any fun n => topic n = k ∧ kind n = e

def queueOnce (box : List ν) (n : ν) : List ν :=
  if hasNotice topic kind box (topic n) (kind n) then box else box ++ [n]

def latest (box : List ν) (k : κ) : Option ν := (box.filter fun n => topic n = k).getLast?

variable {topic kind} {box : List ν} {n : ν} {k : κ} {e : ε}

theorem hasNotice_iff :
    hasNotice topic kind box k e = true ↔ ∃ m ∈ box, topic m = k ∧ kind m = e := by
  simp [hasNotice]

theorem hasNotice_mono {box' : List ν} (h : box ⊆ box') (hk : hasNotice topic kind box k e = true) :
    hasNotice topic kind box' k e = true := by
  obtain ⟨m, hm, hsame⟩ := hasNotice_iff.mp hk
  exact hasNotice_iff.mpr ⟨m, h hm, hsame⟩

theorem queueOnce_of_has (h : hasNotice topic kind box (topic n) (kind n) = true) :
    queueOnce topic kind box n = box := if_pos h

theorem queueOnce_of_not (h : hasNotice topic kind box (topic n) (kind n) = false) :
    queueOnce topic kind box n = box ++ [n] := if_neg (Bool.eq_false_iff.mp h)

theorem latest_append_self : latest topic (box ++ [n]) (topic n) = some n := by
  simp [latest, List.filter_append]

theorem latest_append_of_forall_ne {news : List ν} (h : ∀ m ∈ news, topic m ≠ k) :
    latest topic (box ++ news) k = latest topic box k := by
  have hnone : (news.filter fun m => topic m = k) = [] :=
    List.filter_eq_nil_iff.mpr fun m hm => by simpa using h m hm
  rw [latest, List.filter_append, hnone, List.append_nil]
  rfl

theorem hasNotice_append_of_forall_ne {news : List ν} (h : ∀ m ∈ news, topic m ≠ k) :
    hasNotice topic kind (box ++ news) k e = hasNotice topic kind box k e := by
  have hnone : hasNotice topic kind news k e = false := by
    simp only [hasNotice, List.any_eq_false, decide_eq_true_eq, not_and]
    intro m hm htopic
    exact absurd htopic (h m hm)
  rw [hasNotice, List.any_append]
  change (hasNotice topic kind box k e || hasNotice topic kind news k e) = _
  rw [hnone, Bool.or_false]

theorem hasNotice_of_latest (h : latest topic box k = some n) :
    hasNotice topic kind box k (kind n) = true := by
  have hmem : n ∈ box.filter fun m => topic m = k := List.mem_of_getLast? h
  obtain ⟨hbox, htopic⟩ := List.mem_filter.mp hmem
  exact hasNotice_iff.mpr ⟨n, hbox, of_decide_eq_true htopic, rfl⟩

end Mailbox

end AiHiring.Library
