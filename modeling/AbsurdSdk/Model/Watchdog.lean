import AbsurdSdk.Interaction.Program
import AbsurdSdk.Model.Time

/-! `lease_watchdog`, which ends the process of an execution that is silent for too long. Its loop
is followed for a number of turns. -/

namespace AbsurdSdk.Model

open Interaction

inductive Woken
  | changed (isErr : Bool)
  | slept

inductive WatchdogCall
  | borrow
  | select (lease : Duration)
  | exit (code : ℕ)
  | pending

def WatchdogAnswer : WatchdogCall → Type
  | .borrow => Duration
  | .select _ => Woken
  | .exit _ => Empty
  | .pending => Empty

abbrev WatchdogM (α : Type) := Program WatchdogCall WatchdogAnswer α

namespace WatchdogM

def borrow : WatchdogM Duration := .call .borrow .done

def select (lease : Duration) : WatchdogM Woken := .call (.select lease) .done

def exit {α : Type} (code : ℕ) : WatchdogM α := .call (.exit code) Empty.elim

def hang {α : Type} : WatchdogM α := .call .pending Empty.elim

end WatchdogM

open WatchdogM

def leaseWatchdog (fatalOnLeaseTimeout : Bool) : ℕ → WatchdogM Unit
  | 0 => hang
  | turns + 1 => do
    let lease ← borrow
    match ← select lease with
    | .changed isErr =>
      if isErr then return () else leaseWatchdog fatalOnLeaseTimeout turns
    | .slept =>
      if fatalOnLeaseTimeout then
        match ← select lease with
        | .changed isErr =>
          if isErr then return () else leaseWatchdog fatalOnLeaseTimeout turns
        | .slept => exit 1
      else
        leaseWatchdog fatalOnLeaseTimeout turns

end AbsurdSdk.Model
