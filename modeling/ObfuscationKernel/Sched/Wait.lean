import Mathlib.Tactic
import ObfuscationKernel.Core.Status

/-! The wait registration of a thread: armed once for each wait, completed once. -/

namespace ObfuscationKernel.Sched

open ObfuscationKernel.Core

structure WaitTicket where
  owner : ℕ := 0
  thread : ℕ := 0
  generation : ℕ := 0
  deriving DecidableEq, Repr

inductive WaitCompletion
  | none | ready | timeout | cancelled | interrupted
  deriving DecidableEq, Repr

inductive WakeSource
  | thread | timer | interrupt | poll
  deriving DecidableEq, Repr

structure WaitRegistration where
  ticket : WaitTicket := {}
  completion : WaitCompletion := .none
  source : WakeSource := .thread
  active : Bool := false
  deriving DecidableEq, Repr

namespace WaitRegistration

def generationMax : ℕ := 2 ^ 64 - 1

def arm (r : WaitRegistration) (owner thread : ℕ) : Result WaitTicket × WaitRegistration :=
  if owner = 0 ∨ thread = 0 then (.error (.invalidArgument "wait requires process and thread identities"), r)
  else if r.active then (.error (.busy "thread already owns a wait registration"), r)
  else if r.ticket.generation = generationMax then
    (.error (.overflow "wait registration generation exhausted"), r)
  else
    let ticket : WaitTicket := ⟨owner, thread, r.ticket.generation + 1⟩
    (.ok ticket, { ticket := ticket, completion := .none, source := .thread, active := true })

def pending (r : WaitRegistration) (ticket : WaitTicket) : Bool := r.active && ticket == r.ticket

/-- A timeout is a timer wake, whatever source the caller names. -/
def complete (r : WaitRegistration) (ticket : WaitTicket) (completion : WaitCompletion) (source : WakeSource) :
    Bool × WaitRegistration :=
  if !r.pending ticket || completion == .none then (false, r)
  else
    (true, { r with
      completion := completion, active := false
      source := if completion = .timeout then .timer else source })

def cancel (r : WaitRegistration) : WaitRegistration := (r.complete r.ticket .cancelled .thread).2

end WaitRegistration

end ObfuscationKernel.Sched
