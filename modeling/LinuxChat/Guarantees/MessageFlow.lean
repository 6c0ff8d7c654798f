import LinuxChat.Guarantees.MessageFlow.Balance

/-!
# Where every message is

From `recv_msgs` through the dispatch loop and the queue to a worker's generation check
(server/src/epoll_server.cpp:211-294, server/src/thread_pool.cpp:11-35): in every run nothing is
lost on the way or handled twice, the order of arrival is that of the queue, and only messages
of sessions that left the table are dropped.
-/

namespace LinuxChat.Guarantees.MessageFlow

open LinuxChat.Lib LinuxChat.Source Prog

section
variable {workers : Nat} {db : Database} {c : Config serverInterface Exn Traced}
  (run : (traced workers).Reaches unrestricted (tracedBoot db) c)
include run

/-- The balance holds at any point of the run. -/
theorem balanced_of_run : Balanced workers c.shared := by
  have idle : ∀ t, ((tracedBoot db).thread t).Meets carrying Ended
      (viewOf (tracedBoot db).shared t) := fun _ => ⟨rfl, rfl⟩
  apply (follows workers).invariant_of_done idle (balanced_boot workers db) ?_ ?_ run
  · intro t w action s balanced ok _
    exact balanced_step w balanced ok
  · intro t p s s' balanced ended start
    obtain ⟨shared, flow⟩ := s'
    obtain ⟨started, takes⟩ := start
    replace takes : flow = s.2.take t s.1.server.tasks := takes
    subst takes
    exact balanced_spawn balanced ended.2 started

end

/-- The program has ended without an exception. -/
def returned {α : Type} : Proc α → Bool
  | .ret _ => true
  | _ => false

end LinuxChat.Guarantees.MessageFlow
