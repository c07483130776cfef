import EmbassyKnx.System.Outline

/-!
# Runs under a script

A script polls one task after the other and says what the driver reads. Nothing else
happens: writes succeed and the ticker does not fire. It may be played with the steps of a
kind only.

* `reachable_play`: what a script leads to is reachable.
* `runOf_playIf`: a script that is played with the steps of a kind is a run of that kind.
-/

namespace EmbassyKnx

open Rust Async

/-- What comes next: a poll of the driver, which then reads these octets (`none`: nothing in
    time), or of another task, which goes on until it waits. -/
inductive Cue
  | hear (octets : List (Option UInt8))
  | poll (t : TaskId)

namespace System

/-- The step, if it can be taken. -/
def attempt (p : Profile) (act : Action) (s : System) : System := (s.step p act).getD s

/-- The step, if it can be taken and is one of those that are asked for. -/
def attemptIf (p : Profile) (ok : System → System → Bool) (act : Action) (s : System) : System :=
  match s.step p act with
  | some s' => if ok s s' then s' else s
  | none => s

/-- An environment in which nothing comes in. -/
def quiet : Env := ⟨none, .ok (), false⟩

/-- The running task goes on, with nothing to read. -/
def advance (p : Profile) (s : System) : System := s.attempt p (.run quiet)

/-- The driver's next operation reads from the UART. -/
def readsUart (s : System) : Bool :=
  match s.driver.rest with
  | .perform .read _ => true
  | .perform .readWithTimeout _ => true
  | .perform .selectReadOrRequest _ => true
  | _ => false

section Take

-- how an action is taken
variable (take : Action → System → System)

/-- The running task goes on for some steps, or until it waits. -/
def settleBy : ℕ → System → System
  | 0, s => s
  | n + 1, s => if s.waits then s else settleBy n (take (.run quiet) s)

/-- The driver goes on until it has read the octets. -/
def listenBy : ℕ → List (Option UInt8) → System → System
  | 0, _, s => s
  | n + 1, octets, s =>
    if s.readsUart then
      match octets with
      | [] => s
      | octet :: octets => listenBy n octets (take (.run ⟨octet.map .ok, .ok (), false⟩) s)
    else listenBy n octets (take (.run quiet) s)

/-- What a cue leads to. -/
def cueBy (s : System) : Cue → System
  | .hear octets => listenBy take 200 octets (take (.poll .driver) s)
  | .poll t => settleBy take 200 (take (.poll t) s)

/-- What a script leads to. -/
def playBy (script : List Cue) (s : System) : System := script.foldl (cueBy take) s

variable {take} {motive : System → Prop}

theorem settleBy_induction (htake : ∀ act s, motive s → motive (take act s)) (n : ℕ) {s : System}
    (h : motive s) : motive (settleBy take n s) := by
  induction n generalizing s with
  | zero => exact h
  | succ n ih =>
    unfold settleBy
    split_ifs
    · exact h
    · exact ih (htake _ s h)

theorem listenBy_induction (htake : ∀ act s, motive s → motive (take act s)) (n : ℕ)
    (octets : List (Option UInt8)) {s : System} (h : motive s) :
    motive (listenBy take n octets s) := by
  induction n generalizing octets s with
  | zero => exact h
  | succ n ih =>
    unfold listenBy
    split_ifs
    · cases octets with
      | nil => exact h
      | cons octet octets => exact ih octets (htake _ s h)
    · exact ih octets (htake _ s h)

/-- What every action keeps holds behind a script. -/
theorem playBy_induction (htake : ∀ act s, motive s → motive (take act s)) (script : List Cue)
    {s : System} (h : motive s) : motive (playBy take script s) := by
  induction script generalizing s with
  | nil => exact h
  | cons c script ih =>
    refine ih ?_
    cases c with
    | hear octets => exact listenBy_induction htake 200 octets (htake _ s h)
    | poll t => exact settleBy_induction htake 200 (htake _ s h)

end Take

/-- The running task goes on for some steps, or until it waits. -/
def settle (p : Profile) : ℕ → System → System := settleBy (attempt p)

/-- The driver goes on until it has read the octets. -/
def listen (p : Profile) : ℕ → List (Option UInt8) → System → System := listenBy (attempt p)

/-- What a script leads to. -/
def play (p : Profile) : List Cue → System → System := playBy (attempt p)

/-- What a script leads to with the steps that are asked for. -/
def playIf (p : Profile) (ok : System → System → Bool) : List Cue → System → System :=
  playBy (attemptIf p ok)

/-! ### What the driver hears -/

/-- The octets of a telegram, and the silence behind it. -/
def telegram (octets : List UInt8) : List (Option UInt8) := octets.map some ++ [none]

/-- An `A_GroupValue_Read` from 1.1.1 to 0/0/1. -/
def readTelegram : List (Option UInt8) :=
  telegram [0xBC, 0x11, 0x01, 0x00, 0x01, 0xE1, 0x00, 0x00, 0xB3]

/-- Some of them in a row. -/
def readTelegrams (n : ℕ) : List (Option UInt8) := (List.replicate n readTelegram).flatten

/-- A `T_Connect` from 1.1.1 to 1.1.120. -/
def connectTelegram : List (Option UInt8) :=
  telegram [0xB0, 0x11, 0x01, 0x11, 0x78, 0x60, 0x80, 0xD6]

/-- A `T_Connect` from 1.1.2. -/
def otherConnectTelegram : List (Option UInt8) :=
  telegram [0xB0, 0x11, 0x02, 0x11, 0x78, 0x60, 0x80, 0xD5]

/-- A control octet without a frame, behind which the driver drains the line. -/
def noise : List (Option UInt8) := [some 0x90, none]

/-- The echo of a frame of `n` octets, whose values the driver does not look at, and a positive
    confirmation. -/
def echo (n : ℕ) : List (Option UInt8) := List.replicate n (some 0) ++ [some 0x8b]

variable {p : Profile} {s s' : System}

theorem leads_attempt (s : System) (act : Action) :
    Relation.ReflTransGen (Step p) s (s.attempt p act) := by
  unfold attempt
  cases hstep : s.step p act with
  | none => exact .refl
  | some s' => exact .single ⟨act, hstep⟩

theorem leads_settle (n : ℕ) (s : System) : Relation.ReflTransGen (Step p) s (settle p n s) :=
  settleBy_induction (fun act s' h => h.trans (leads_attempt s' act)) n .refl

theorem leads_listen (n : ℕ) (octets : List (Option UInt8)) (s : System) :
    Relation.ReflTransGen (Step p) s (listen p n octets s) :=
  listenBy_induction (fun act s' h => h.trans (leads_attempt s' act)) n octets .refl

theorem leads_play (script : List Cue) (s : System) :
    Relation.ReflTransGen (Step p) s (play p script s) :=
  playBy_induction (fun act s' h => h.trans (leads_attempt s' act)) script .refl

theorem reachable_attempt (h : Reachable p s) (act : Action) : Reachable p (s.attempt p act) :=
  h.trans (leads_attempt s act)

theorem reachable_advance (h : Reachable p s) : Reachable p (s.advance p) :=
  reachable_attempt h (.run quiet)

/-- What a script leads to is reachable. -/
theorem reachable_play (h : Reachable p s) (script : List Cue) : Reachable p (play p script s) :=
  h.trans (leads_play script s)

theorem step_advance (h : (s.step p (.run quiet)).isSome = true) : Step p s (s.advance p) := by
  obtain ⟨s', hs'⟩ := Option.isSome_iff_exists.mp h
  refine ⟨.run quiet, ?_⟩
  rw [advance, attempt, hs']
  rfl

theorem runOf_attemptIf {ok : System → System → Bool} {kind : System → System → Prop}
    (hok : ∀ s s', ok s s' = true → kind s s') (act : Action) (s : System) :
    RunOf p kind s (s.attemptIf p ok act) := by
  unfold attemptIf
  cases hstep : s.step p act with
  | none => exact .refl
  | some s' =>
    show RunOf p kind s (if ok s s' then s' else s)
    split_ifs with hs
    · exact .single ⟨⟨act, hstep⟩, hok s s' hs⟩
    · exact .refl

/-- A script that is played with the steps of a kind only is a run of that kind. -/
theorem runOf_playIf {ok : System → System → Bool} {kind : System → System → Prop}
    (hok : ∀ s s', ok s s' = true → kind s s') (script : List Cue) (s : System) :
    RunOf p kind s (playIf p ok script s) :=
  playBy_induction (fun act s' h => h.trans (runOf_attemptIf hok act s')) script .refl

end System

end EmbassyKnx
