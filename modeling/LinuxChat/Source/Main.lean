import LinuxChat.Source.EpollServer

/-!
# Scope exit of main

server/main.cpp:84-117 from the return of `run()` on. The router is destroyed first, then
the server: the body of `~EpollServer` (server/src/epoll_server.cpp:75-89), and its members
in reverse order of declaration (server/include/epoll_server.h:68-88). `pool_` is the last
one that matters: its destructor sets `stop_`, lets the workers drain the queue and joins
them. The workers go on all the while; the event loop's thread is the one that destroys.
-/

namespace LinuxChat.Source

open LinuxChat.Lib

/-- How far the scope exit has come. -/
inductive Phase where
  | returned
  | routerGone
  -- the body of `~EpollServer` is over
  | closed
  | disconnectGone
  | messageGone
  | sessionsGone
  | mutexGone
  | draining
  | joined
  deriving DecidableEq

namespace Phase

/-- The router, which every call of `on_message_` uses, is destroyed. -/
def router : Phase → Bool
  | .returned => false
  | _ => true

/-- `sessions_` is destroyed; `sessions_mutex_` is the next member. -/
def sessions : Phase → Bool
  | .sessionsGone => true
  | .mutexGone => true
  | .draining => true
  | .joined => true
  | _ => false

end Phase

/-- Members destroyed one after the other, with nothing else done. -/
inductive Phase.Next : Phase → Phase → Prop
  | destroyRouter : Phase.Next .returned .routerGone
  | destroyDisconnect : Phase.Next .closed .disconnectGone
  | destroyMessage : Phase.Next .disconnectGone .messageGone
  | destroySessions : Phase.Next .messageGone .sessionsGone
  | destroyMutex : Phase.Next .sessionsGone .mutexGone

/-- An action that starts `on_message_` when the router is gone, or touches `sessions_`
when these are. -/
def lateUse (phase : Phase) : (action : Act) → action.Res → Bool
  | .checkGeneration _, passes => passes && phase.router
  | .findByFd _, _ => phase.sessions
  | .findSession _, _ => phase.sessions
  | .broadcastTargets _, _ => phase.sessions
  | .reserveForLogin _, _ => phase.sessions
  | _, _ => false

/-- The process during scope exit; `late` remembers a late use. -/
structure Exit where
  config : Config serverInterface Exn Shared
  phase : Phase := .returned
  late : Bool := false

/-- Change the server, and nothing of the threads. -/
def Exit.changed (e : Exit) (server : Server) (phase : Phase) : Exit where
  config := ⟨{ e.config.shared with server := server }, e.config.thread⟩
  phase := phase
  late := e.late

/-- Scope exit of main: workers go on while the destructors run one after the other. -/
inductive ExitStep (workers : Nat) : Exit → Exit → Prop
  | act {e : Exit} {t : Nat} {action : Act} {next : action.Res → Proc Unit} (w : World)
      (worker : t ≠ 0) (running : e.config.thread t = .act action next) :
      ExitStep workers e
        { e with
          config :=
            ⟨(execShared t w action e.config.shared).2,
              Function.update e.config.thread t (next (execShared t w action e.config.shared).1)⟩
          late := e.late || lateUse e.phase action (execShared t w action e.config.shared).1 }
  | take {e : Exit} {t : Nat} {p : Proc Unit} {s : Shared} (worker : t ≠ 0)
      (idle : e.config.thread t = .ret ()) (start : Start workers t p e.config.shared s) :
      ExitStep workers e { e with config := ⟨s, Function.update e.config.thread t p⟩ }
  | destroy {e : Exit} {phase : Phase} (next : e.phase.Next phase) :
      ExitStep workers e { e with phase := phase }
  -- `stop()` has nothing to do once `run()` has returned
  | close {e : Exit} (destroyed : e.phase = .routerGone) :
      ExitStep workers e (e.changed { e.config.shared.server with sessions := [] } .closed)
  | stopPool {e : Exit} (destroyed : e.phase = .mutexGone) :
      ExitStep workers e (e.changed { e.config.shared.server with poolStop := true } .draining)
  | join {e : Exit} (stopped : e.phase = .draining) (drained : e.config.shared.server.tasks = [])
      (ended : ∀ t, t ≠ 0 → e.config.thread t = .ret ()) :
      ExitStep workers e { e with phase := .joined }

/-- What can happen from the return of `run()` on. -/
inductive Exits (workers : Nat) (e : Exit) : Exit → Prop
  | refl : Exits workers e e
  | tail {e₁ e₂ : Exit} (run : Exits workers e e₁) (step : ExitStep workers e₁ e₂) :
      Exits workers e e₂

end LinuxChat.Source
