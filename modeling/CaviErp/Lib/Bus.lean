import Mathlib.Data.List.Basic
import Mathlib.Logic.Function.Basic

/-!
# Processes on a broadcast bus

A `Network` is a family of processes that react to messages one at a time. What a process sends reaches
the inbox of each running process that hears it, its own included; nobody else ever sees it. Beside their
own states the processes have a store in common.

Nothing is promised of the transport: an inbox is read in any order, a message in it may be lost, a
process may stop at any time, and one that is started again has lost what was in its inbox. A property of
every run is one of every interleaving.
-/

namespace Bus

/-- What a process makes of one message. -/
structure Reaction (State Shared Msg : Type) where
  state : State
  shared : Shared
  sent : List Msg
  /-- Whether the process lives on. -/
  alive : Bool

structure Network (ι : Type) where
  Msg : Type
  /-- What the processes have in common. -/
  Shared : Type
  State : ι → Type
  /-- What a process takes from outside when it reacts. -/
  Input : ι → Type
  hears : ι → Msg → Bool
  react : (i : ι) → Input i → Msg → State i → Shared → Reaction (State i) Shared Msg
  /-- What a process that is started again has left of its state. -/
  reboot : (i : ι) → State i → State i

/-- A message on its way, with its sender; `none` is the outside. -/
structure Letter (ι Msg : Type) where
  origin : Option ι
  body : Msg

namespace Network

variable {ι : Type} (N : Network ι)

structure Config where
  state : ∀ i, N.State i
  shared : N.Shared
  inbox : ι → List (Letter ι N.Msg) := fun _ => []
  running : ι → Bool := fun _ => true
  /-- All that was ever sent, oldest first. -/
  sent : List (Letter ι N.Msg) := []

inductive Step where
  | inject (m : N.Msg)
  /-- The process reads the `k`-th message of its inbox. -/
  | deliver (i : ι) (k : Nat) (input : N.Input i)
  | lose (i : ι) (k : Nat)
  | stop (i : ι)
  | start (i : ι)

/-- A process about to react. -/
structure Activation where
  before : N.Config
  who : ι
  letter : Letter ι N.Msg
  input : N.Input who

variable {N}

def Activation.reaction (x : N.Activation) : Reaction (N.State x.who) N.Shared N.Msg :=
  N.react x.who x.input x.letter.body (x.before.state x.who) x.before.shared

/-- The letters that the reaction sends. -/
def Activation.letters (x : N.Activation) : List (Letter ι N.Msg) :=
  x.reaction.sent.map fun m => ⟨some x.who, m⟩

namespace Config

/-- Letters reach whoever runs and hears them. -/
def broadcast (c : N.Config) (letters : List (Letter ι N.Msg)) : N.Config :=
  { c with
    inbox := fun i =>
      if c.running i then c.inbox i ++ letters.filter fun l => N.hears i l.body else c.inbox i
    sent := c.sent ++ letters }

/-- The activation of a step, if it has one. -/
def activation (c : N.Config) : N.Step → Option N.Activation
  | .deliver i k input =>
    if c.running i then ((c.inbox i)[k]?).map fun l => ⟨c, i, l, input⟩ else none
  | _ => none

theorem activation_eq_some {c : N.Config} {s : N.Step} {x : N.Activation} (h : c.activation s = some x) :
    ∃ k, s = .deliver x.who k x.input ∧ c.running x.who = true ∧
      (c.inbox x.who)[k]? = some x.letter ∧ x.before = c := by
  cases s with
  | deliver i k input =>
    simp only [activation] at h
    by_cases hrun : c.running i = true
    · rw [if_pos hrun] at h
      obtain ⟨l, hl, rfl⟩ := Option.map_eq_some_iff.mp h
      exact ⟨k, rfl, hrun, hl, rfl⟩
    · rw [if_neg hrun] at h
      cases h
  | inject m => cases h
  | lose i k => cases h
  | stop i => cases h
  | start i => cases h

theorem mem_inbox_broadcast {c : N.Config} {letters : List (Letter ι N.Msg)} {i : ι}
    {l : Letter ι N.Msg} (h : l ∈ (c.broadcast letters).inbox i) :
    l ∈ c.inbox i ∨ l ∈ letters ∧ N.hears i l.body = true := by
  simp only [broadcast] at h
  split at h
  · rcases List.mem_append.mp h with h | h
    · exact .inl h
    · exact .inr (List.mem_filter.mp h)
  · exact .inl h

theorem inbox_broadcast {c : N.Config} (letters : List (Letter ι N.Msg)) {i : ι}
    (h : c.running i = true) :
    (c.broadcast letters).inbox i = c.inbox i ++ letters.filter fun l => N.hears i l.body := by
  simp [broadcast, h]

variable [DecidableEq ι]

/-- The process, without the letter it read, and without any once it is dead. -/
def settle (c : N.Config) (k : Nat) (x : N.Activation) : N.Config :=
  { c with
    state := Function.update c.state x.who x.reaction.state
    shared := x.reaction.shared
    inbox := Function.update c.inbox x.who
      (if x.reaction.alive then (c.inbox x.who).eraseIdx k else [])
    running := Function.update c.running x.who x.reaction.alive }

def step (c : N.Config) : N.Step → N.Config
  | .inject m => c.broadcast [⟨none, m⟩]
  | .deliver i k input =>
    match c.activation (.deliver i k input) with
    | none => c
    | some x => (c.settle k x).broadcast x.letters
  | .lose i k => { c with inbox := Function.update c.inbox i ((c.inbox i).eraseIdx k) }
  | .stop i =>
    { c with inbox := Function.update c.inbox i [], running := Function.update c.running i false }
  | .start i =>
    { c with
      state := Function.update c.state i (N.reboot i (c.state i))
      inbox := Function.update c.inbox i []
      running := Function.update c.running i true }

def run (c : N.Config) (steps : List N.Step) : N.Config := steps.foldl step c

/-- The activations of a run, in order. -/
def history (c : N.Config) : List N.Step → List N.Activation
  | [] => []
  | s :: steps => (c.activation s).toList ++ history (c.step s) steps

/-! ## What a step does -/

/-- A delivery of nothing, or to nobody. -/
theorem step_deliver_of_none {c : N.Config} {i : ι} {k : Nat} {input : N.Input i}
    (h : c.activation (.deliver i k input) = none) : c.step (.deliver i k input) = c := by
  rw [step, h]

/-- A step that activates no process leaves the store, sends only what it injects, and takes no letter
into an inbox that is not sent. -/
theorem step_of_inactive {c : N.Config} {s : N.Step} (h : c.activation s = none) :
    (c.step s).shared = c.shared ∧
      ((∃ m, s = .inject m ∧ c.step s = c.broadcast [⟨none, m⟩]) ∨
        (c.step s).sent = c.sent ∧ ∀ i, ((c.step s).inbox i).Sublist (c.inbox i)) := by
  cases s with
  | inject m => exact ⟨rfl, .inl ⟨m, rfl, rfl⟩⟩
  | deliver i k input =>
    rw [step_deliver_of_none h]
    exact ⟨rfl, .inr ⟨rfl, fun i => .refl _⟩⟩
  | lose i k =>
    refine ⟨rfl, .inr ⟨rfl, fun j => ?_⟩⟩
    by_cases hj : j = i
    · subst hj
      simpa [step] using List.eraseIdx_sublist (c.inbox j) k
    · simp [step, hj]
  | stop i =>
    refine ⟨rfl, .inr ⟨rfl, fun j => ?_⟩⟩
    by_cases hj : j = i
    · subst hj
      simp [step]
    · simp [step, hj]
  | start i =>
    refine ⟨rfl, .inr ⟨rfl, fun j => ?_⟩⟩
    by_cases hj : j = i
    · subst hj
      simp [step]
    · simp [step, hj]

/-- A step that activates a process. -/
theorem step_of_active {c : N.Config} {s : N.Step} {x : N.Activation} (h : c.activation s = some x) :
    ∃ k, s = .deliver x.who k x.input ∧ c.step s = (c.settle k x).broadcast x.letters := by
  obtain ⟨k, rfl, -⟩ := activation_eq_some h
  exact ⟨k, rfl, by rw [step, h]⟩

theorem settle_inbox_sublist (c : N.Config) (k : Nat) (x : N.Activation) (i : ι) :
    ((c.settle k x).inbox i).Sublist (c.inbox i) := by
  by_cases hi : i = x.who
  · subst hi
    simp only [settle, Function.update_self]
    split
    · exact List.eraseIdx_sublist _ _
    · exact List.nil_sublist _
  · simp [settle, hi]

/-! ## Runs -/

@[simp] theorem run_nil (c : N.Config) : c.run [] = c := rfl

@[simp] theorem run_cons (c : N.Config) (s : N.Step) (steps : List N.Step) :
    c.run (s :: steps) = (c.step s).run steps := rfl

@[simp] theorem history_nil (c : N.Config) : c.history [] = [] := rfl

theorem history_cons (c : N.Config) (s : N.Step) (steps : List N.Step) :
    c.history (s :: steps) = (c.activation s).toList ++ (c.step s).history steps := rfl

/-- Each process is activated in a configuration where the invariant holds. -/
theorem history_induct {I : N.Config → Prop} (hstep : ∀ c s, I c → I (c.step s))
    (steps : List N.Step) (c : N.Config) (h : I c) :
    ∀ x ∈ c.history steps, I x.before ∧ x.before.running x.who = true ∧
      x.letter ∈ x.before.inbox x.who := by
  induction steps generalizing c with
  | nil => simp
  | cons s steps ih =>
    intro x hx
    rw [history_cons, List.mem_append, Option.mem_toList] at hx
    rcases hx with hx | hx
    · obtain ⟨k, -, hrun, hl, hbefore⟩ := activation_eq_some hx
      rw [hbefore]
      exact ⟨h, hrun, List.mem_of_getElem? hl⟩
    · exact ih _ (hstep c s h) x hx

end Config

end Network

end Bus
