import Rnet.Network.LoopQueue

/-!
# How soon a loop ends

`Quit` sets `quit_`, and from another thread it writes to the eventfd afterwards. Between the test
of `quit_` and the poll the flag goes unseen, and the poll may sleep for `kPollTimeMs`. Two facts
about every run make up for that: a loop that is at its poll with `quit_` set has been signalled,
or the thread in `Quit` is about to do it; and once `quit_` is set, the poll the loop is at is the
last one before `Loop()` returns, and a loop that is elsewhere does not poll again.
-/
namespace Rnet.Network.Loop

open Check

variable {F : Type} {l t : Loop F} {a : Action F}

/-! ### The signal -/

/-- The poll will not sleep on the flag: the counter is positive, or a thread is in `Quit` before
its write to the eventfd. -/
def Alarmed (l : Loop F) : Prop := 0 < l.wakeups ∨ ∃ u, l.callers u = .quitting

/-- A loop at its poll that has to end is alarmed. -/
def Roused (l : Loop F) : Prop := l.point = .polling → l.quit = true → l.Alarmed

theorem roused_start : Roused (start : Loop F) := by
  intro polling
  cases polling

/-- Another thread comes to a place that is not in `Quit`. -/
theorem Alarmed.setCaller {u : Tid} {c : Caller F} (alarmed : l.Alarmed) (before : l.callers u ≠ .quitting) :
    (l.setCaller u c).Alarmed := by
  refine alarmed.imp_right ?_
  rintro ⟨v, quitting⟩
  have other : v ≠ u := by
    rintro rfl
    exact before quitting
  exact ⟨v, by rw [setCaller_ne c other]; exact quitting⟩

theorem Roused.step (roused : Roused l) (taken : Step l a t) : Roused t := by
  intro polling quit
  cases taken with
  | stay _ _ going =>
    -- the test has just seen the flag down
    rw [going] at quit
    cases quit
  | quit _ user =>
    -- user code does not run in the poll
    have polling : l.point = .polling := polling
    simp [UserCode, polling] at user
  | queueInLoop f _ _ => exact roused polling quit
  | next f rest _ _ _ => exact roused polling quit
  | handleWakeUp _ handling =>
    rw [handling] at polling
    cases polling
  | wakeup => exact Or.inl (Signalled.wakeup l)
  | callQueueInLoop u f idle => exact (roused polling quit).setCaller (by simp [idle])
  | callPush u f queueing =>
    exact Alarmed.setCaller (l := l.push f) (roused polling quit) (by simp [Loop.push, queueing])
  | callQuit u _ => exact Or.inr ⟨u, by simp [Loop.setCaller]⟩
  | callWakeup u _ => exact Or.inl (Signalled.wakeup l)
  | loop | leave | poll | doPendingFunctors | swap | finish => cases polling

/-! ### The polls that are left -/

def Action.isPoll : Action F → Bool
  | .poll _ => true
  | _ => false

/-- How often the poll of a loop that has to end still returns. -/
def pollsLeft (l : Loop F) : Nat := if l.point = .polling then 1 else 0

/-- Only the entry of `Loop()` takes the flag down, and only the test leads to the poll. -/
theorem Step.ends (taken : Step l a t) (inside : a ≠ .loop) (quit : l.quit = true) :
    t.quit = true ∧ a.isPoll.toNat + t.pollsLeft ≤ l.pollsLeft := by
  cases taken with
  | loop => exact absurd rfl inside
  | stay _ _ going =>
    rw [going] at quit
    cases quit
  | poll wakeup _ point => exact ⟨quit, by simp [Action.isPoll, pollsLeft, point]⟩
  | leave | doPendingFunctors | swap | finish => exact ⟨quit, by simp [Action.isPoll, pollsLeft]⟩
  -- the others leave the loop thread where it is
  | quit | callQuit => exact ⟨rfl, (Nat.zero_add l.pollsLeft).le⟩
  | handleWakeUp | next | queueInLoop | wakeup | callQueueInLoop | callPush | callWakeup =>
    exact ⟨quit, (Nat.zero_add l.pollsLeft).le⟩

theorem polls_bounded (later : List (Action F)) (l t : Loop F) (quit : l.quit = true) (inside : .loop ∉ later)
    (reached : Run.exec step l later = .ok t) : later.countP Action.isPoll ≤ l.pollsLeft := by
  -- along the run, with what each step takes from the polls that are left
  induction later generalizing l with
  | nil => exact Nat.zero_le _
  | cons a rest ih =>
    obtain ⟨u, taken, reached⟩ := bind_eq_ok.mp reached
    have first : a ≠ .loop := fun same => inside (same ▸ List.mem_cons_self)
    obtain ⟨quit, fewer⟩ := (step_spec l a u taken).ends first quit
    have others := ih u quit (fun member => inside (List.mem_cons_of_mem a member)) reached
    have counted : (a :: rest).countP Action.isPoll = a.isPoll.toNat + rest.countP Action.isPoll := by
      rw [List.countP_cons, Nat.add_comm]
      cases a.isPoll <;> rfl
    omega

/-- In every run of a loop with any number of threads, from the moment `quit_` is set: a loop at
its poll is woken, and until `Loop()` is entered again that poll is the only one that returns. -/
theorem quit_prompt (acts later : List (Action F)) (l t : Loop F) (reached : Run.exec step start acts = .ok l)
    (quit : l.quit = true) (inside : .loop ∉ later) (goes : Run.exec step l later = .ok t) :
    (l.point = .polling → 0 < l.wakeups ∨ ∃ u, l.callers u = .quitting) ∧
      later.countP Action.isPoll ≤ if l.point = .polling then 1 else 0 := by
  have roused : Roused l := by
    refine Run.exec_keeps_all (fun l a t roused taken => ?_) start l acts roused_start reached
    exact Roused.step roused (step_spec l a t taken)
  exact ⟨fun polling => roused polling quit, polls_bounded later l t quit inside goes⟩

/-- A thread quits a loop that has just tested the flag, and writes to the eventfd later. -/
def quitUnseen : List (Action Nat) := [.loop, .test, .callQuit 5]

def lastRound : List (Action Nat) :=
  [.callWakeup 5, .poll true, .handleWakeUp, .doPendingFunctors, .swap, .finish, .test]

theorem quit_prompt_unseen :
    ∃ l t, Run.exec step start quitUnseen = .ok l ∧ l.quit = true ∧ l.point = .polling ∧ l.wakeups = 0 ∧
      Run.exec step l lastRound = .ok t ∧ t.point = .outside ∧
      (0 < l.wakeups ∨ ∃ u, l.callers u = .quitting) ∧ lastRound.countP Action.isPoll ≤ 1 := by
  have first : (Run.exec step start quitUnseen).toOption.map (fun l => (l.quit, l.point, l.wakeups)) =
      some (true, .polling, 0) := by decide +kernel
  have second : (Run.exec step start quitUnseen >>= fun l => Run.exec step l lastRound).toOption.map
      (fun l => l.point) = some .outside := by decide +kernel
  obtain ⟨l, reached, ended⟩ := returned_of_map first
  simp only [Prod.mk.injEq] at ended
  obtain ⟨quit, polling, wakeups⟩ := ended
  obtain ⟨t, goes, outside⟩ := returned_of_map second
  rw [reached] at goes
  have prompt := quit_prompt quitUnseen lastRound l t reached quit (by decide) goes
  rw [if_pos polling] at prompt
  exact ⟨l, t, reached, quit, polling, wakeups, goes, outside, prompt.1 polling, prompt.2⟩

end Rnet.Network.Loop
