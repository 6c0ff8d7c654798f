import LinuxChat.Source.Server

/-!
# How long a block lasts

`record_failed_login` blocks an address for 300 s once its count has reached
MAX_LOGIN_ATTEMPTS (server/src/message_router.cpp:180-200). The login that is recorded
next may have been let in before the block. If that is more than one minute after the first
attempt of the window, the count starts over at 1 and `is_rate_limited` lets everybody in
again, although `blocked_until` is still to come. As long as no such failure is recorded the
block lasts, whatever else is called for this and other addresses.
-/

namespace LinuxChat.Guarantees.BlockDuration

open LinuxChat.Source

/-- The three operations on the records of failed logins, each for an address. -/
inductive LimitCall where
  | isRateLimited (ip : String)
  | recordFailedLogin (ip : String)
  | clearLoginAttempts (ip : String)
  deriving DecidableEq

/-- The address it is for. -/
def LimitCall.ip : LimitCall → String
  | .isRateLimited ip => ip
  | .recordFailedLogin ip => ip
  | .clearLoginAttempts ip => ip

/-- What it does to the records at a time of the steady clock. -/
def LimitCall.perform (now : Nat) : LimitCall → LoginAttempts → LoginAttempts
  | .isRateLimited ip, attempts => (Source.isRateLimited attempts now ip).2
  | .recordFailedLogin ip, attempts => Source.recordFailedLogin attempts now ip
  | .clearLoginAttempts ip, attempts => Source.clearLoginAttempts attempts ip

/-- A call, with the time of the steady clock at which it is made. -/
abbrev Timed := Nat × LimitCall

/-- The calls one after the other. -/
def performAll : List Timed → LoginAttempts → LoginAttempts
  | [], attempts => attempts
  | call :: rest, attempts => performAll rest (call.2.perform call.1 attempts)

/-- The steady clock does not go back. -/
def InOrder (calls : List Timed) : Prop := calls.Pairwise fun x y => x.1 ≤ y.1

/-- Nobody has cleared the record of the address. -/
def Uncleared (ip : String) (calls : List Timed) : Prop :=
  ∀ call ∈ calls, call.2 ≠ .clearLoginAttempts ip

/-- Wherever `is_rate_limited` is called between the later calls, at `start` or afterwards but
not after the deadline, it returns true. -/
def StaysBlocked (ip : String) (start deadline : Nat) (attempts : LoginAttempts)
    (later : List Timed) : Prop :=
  ∀ earlier rest now, later = earlier ++ rest → Uncleared ip earlier →
    (∀ call ∈ earlier, call.1 ≤ now) → start ≤ now → now ≤ deadline →
      (isRateLimited (performAll earlier attempts) now ip).1 = true

/-- Every failure recorded for the address up to the deadline comes within one minute of the
first attempt. -/
def InWindow (ip : String) (first deadline : Nat) (later : List Timed) : Prop :=
  ∀ earlier now rest, later = earlier ++ (now, .recordFailedLogin ip) :: rest →
    Uncleared ip earlier → now ≤ deadline → now ≤ first + seconds 60

/-! ## One call -/

/-- The address is blocked up to the deadline at least, with this first attempt. -/
def Held (ip : String) (first deadline : Nat) (attempts : LoginAttempts) : Prop :=
  ∃ record, attempts ip = some record ∧ maxLoginAttempts ≤ record.count ∧
    record.firstAttempt = first ∧ deadline ≤ record.blockedUntil

variable {ip : String} {first deadline start now : Nat} {attempts : LoginAttempts}

theorem Held.limited (held : Held ip first deadline attempts) (early : now ≤ deadline) :
    isRateLimited attempts now ip = (true, attempts) := by
  obtain ⟨record, found, reached, _, late⟩ := held
  have current : ¬ now > record.blockedUntil := by omega
  simp only [isRateLimited, found, if_neg current]
  rw [decide_eq_true reached]

/-- A call for another address does not touch the record. -/
theorem perform_other {call : LimitCall} (differs : ip ≠ call.ip) :
    call.perform now attempts ip = attempts ip := by
  cases call with
  | isRateLimited other =>
    simp only [LimitCall.perform, isRateLimited]
    split
    · rfl
    · split
      · exact Function.update_of_ne differs _ _
      · rfl
  | recordFailedLogin other => exact Function.update_of_ne differs _ _
  | clearLoginAttempts other => exact Function.update_of_ne differs _ _

/-- Nor does a check of a blocked address. -/
theorem Held.idle {call : LimitCall} (held : Held ip first deadline attempts) (early : now ≤ deadline)
    (fails : call ≠ .recordFailedLogin ip) (clears : call ≠ .clearLoginAttempts ip) :
    Held ip first deadline (call.perform now attempts) := by
  by_cases own : ip = call.ip
  · cases call with
    | isRateLimited other =>
      cases own
      have limited : isRateLimited attempts now other = (true, attempts) := held.limited early
      change Held other first deadline (isRateLimited attempts now other).2
      rw [limited]
      exact held
    | recordFailedLogin other => exact absurd (congrArg _ own.symm) fails
    | clearLoginAttempts other => exact absurd (congrArg _ own.symm) clears
  · obtain ⟨record, found, others⟩ := held
    exact ⟨record, (perform_other own).trans found, others⟩

/-- A failure in the window counts on, and one after it starts over, with the old deadline. -/
theorem recordFailedLogin_held {record : LoginAttempt} (found : attempts ip = some record)
    (reached : maxLoginAttempts ≤ record.count) :
    recordFailedLogin attempts now ip ip =
      if now - record.firstAttempt > seconds 60 then some ⟨1, now, record.blockedUntil⟩
      else some ⟨record.count + 1, record.firstAttempt, now + seconds blockDurationSec⟩ := by
  have five : maxLoginAttempts = 5 := rfl
  have counted : record.count > 0 := by omega
  have nonzero : record.count ≠ 0 := by omega
  have more : record.count + 1 ≥ 5 := by omega
  by_cases outside : now - record.firstAttempt > seconds 60
  · simp [recordFailedLogin, found, counted, outside, five]
  · simp [recordFailedLogin, found, outside, nonzero, more, five]

theorem Held.record (held : Held ip first deadline attempts) (within : now ≤ first + seconds 60)
    (begun : deadline ≤ now + seconds blockDurationSec) :
    Held ip first deadline (recordFailedLogin attempts now ip) := by
  obtain ⟨record, found, reached, same, _⟩ := held
  have inside : ¬ now - record.firstAttempt > seconds 60 := by omega
  have after := @recordFailedLogin_held ip now attempts record found reached
  rw [if_neg inside] at after
  exact ⟨_, after, Nat.le_succ_of_le reached, same, begun⟩

theorem Held.reset (held : Held ip first deadline attempts) (outside : ¬ now ≤ first + seconds 60)
    (early : now ≤ deadline) :
    (isRateLimited (recordFailedLogin attempts now ip) now ip).1 = false := by
  obtain ⟨record, found, reached, same, late⟩ := held
  have past : now - record.firstAttempt > seconds 60 := by omega
  have after := @recordFailedLogin_held ip now attempts record found reached
  rw [if_pos past] at after
  have current : ¬ now > record.blockedUntil := by omega
  simp only [isRateLimited, after, if_neg current]
  rfl

/-! ## All calls -/

theorem staysBlocked_cons {call : Timed} {rest : List Timed} (later : start ≤ call.1) :
    StaysBlocked ip start deadline attempts (call :: rest) ↔
      (∀ now, start ≤ now → now ≤ deadline → (isRateLimited attempts now ip).1 = true) ∧
        (call.2 ≠ .clearLoginAttempts ip →
          StaysBlocked ip call.1 deadline (call.2.perform call.1 attempts) rest) := by
  constructor
  · intro stays
    refine ⟨fun now begun early => ?_, fun uncleared earlier others now split clean past begun early => ?_⟩
    · exact stays [] _ now rfl (fun _ member => nomatch member) (fun _ member => nomatch member)
        begun early
    · apply stays (call :: earlier) others now (by rw [split, List.cons_append])
      · intro other member
        rcases List.mem_cons.mp member with rfl | member
        · exact uncleared
        · exact clean other member
      · intro other member
        rcases List.mem_cons.mp member with rfl | member
        · exact begun
        · exact past other member
      · exact Nat.le_trans later begun
      · exact early
  · rintro ⟨first, stays⟩ earlier others now split clean past begun early
    cases earlier with
    | nil => exact first now begun early
    | cons head tail =>
      cases split
      apply stays (clean _ List.mem_cons_self) tail others now rfl
      · exact fun other member => clean other (List.mem_cons_of_mem _ member)
      · exact fun other member => past other (List.mem_cons_of_mem _ member)
      · exact past _ List.mem_cons_self
      · exact early

theorem inWindow_cons {call : Timed} {rest : List Timed} :
    InWindow ip first deadline (call :: rest) ↔
      (call.2 = .recordFailedLogin ip → call.1 ≤ deadline → call.1 ≤ first + seconds 60) ∧
        (call.2 ≠ .clearLoginAttempts ip → InWindow ip first deadline rest) := by
  constructor
  · intro inside
    refine ⟨fun records early => ?_, fun uncleared earlier now others split clean early => ?_⟩
    · apply inside [] call.1 rest _ (fun _ member => nomatch member) early
      rw [← records]
      rfl
    · apply inside (call :: earlier) now others (by rw [split, List.cons_append]) _ early
      intro other member
      rcases List.mem_cons.mp member with rfl | member
      · exact uncleared
      · exact clean other member
  · rintro ⟨here, inside⟩ earlier now others split clean early
    cases earlier with
    | nil =>
      cases split
      exact here rfl early
    | cons head tail =>
      cases split
      exact inside (clean _ List.mem_cons_self) tail now others rfl
        (fun other member => clean other (List.mem_cons_of_mem _ member)) early

/-- Calls after the deadline do not matter. -/
theorem staysBlocked_of_late {later : List Timed} (late : ∀ call ∈ later, deadline < call.1) :
    StaysBlocked ip start deadline attempts later ↔
      ∀ now, start ≤ now → now ≤ deadline → (isRateLimited attempts now ip).1 = true := by
  constructor
  · intro stays now begun early
    exact stays [] later now rfl (fun _ member => nomatch member) (fun _ member => nomatch member)
      begun early
  · intro here earlier rest now split _ past begun early
    cases earlier with
    | nil => exact here now begun early
    | cons head tail =>
      have after := late head (by rw [split]; exact List.mem_cons_self)
      have before := past head List.mem_cons_self
      omega

theorem inWindow_of_late {later : List Timed} (late : ∀ call ∈ later, deadline < call.1) :
    InWindow ip first deadline later := by
  intro earlier now rest split _ early
  have after := late (now, .recordFailedLogin ip) (by rw [split]; simp)
  dsimp only at after
  omega

/-- From a block on, along the later calls. -/
theorem staysBlocked_iff (later : List Timed) (held : Held ip first deadline attempts)
    (begun : deadline ≤ start + seconds blockDurationSec)
    (ordered : InOrder later) (after : ∀ call ∈ later, start ≤ call.1) :
    StaysBlocked ip start deadline attempts later ↔ InWindow ip first deadline later := by
  induction later generalizing attempts start with
  | nil =>
    have none : ∀ call ∈ ([] : List Timed), deadline < call.1 := fun _ member => nomatch member
    rw [staysBlocked_of_late none]
    refine ⟨fun _ => inWindow_of_late none, fun _ now _ early => ?_⟩
    rw [held.limited early]
  | cons call rest ih =>
    obtain ⟨time, call⟩ := call
    have sorted : InOrder rest := (List.pairwise_cons.mp ordered).2
    have following : ∀ other ∈ rest, time ≤ other.1 := (List.pairwise_cons.mp ordered).1
    have started : start ≤ time := after (time, call) List.mem_cons_self
    have here : ∀ now, start ≤ now → now ≤ deadline → (isRateLimited attempts now ip).1 = true := by
      intro now _ early
      rw [held.limited early]
    by_cases early : time ≤ deadline
    · have begun' : deadline ≤ time + seconds blockDurationSec := by omega
      -- a call that leaves the block as it is
      have keeps : Held ip first deadline (call.perform time attempts) →
          call ≠ .recordFailedLogin ip ∨ time ≤ first + seconds 60 →
          (StaysBlocked ip start deadline attempts ((time, call) :: rest) ↔
            InWindow ip first deadline ((time, call) :: rest)) := by
        intro still harmless
        rw [staysBlocked_cons started, inWindow_cons, ih still begun' sorted following]
        constructor
        · rintro ⟨_, rest⟩
          refine ⟨fun records _ => ?_, rest⟩
          exact harmless.resolve_left fun other => other records
        · rintro ⟨_, rest⟩
          exact ⟨here, rest⟩
      by_cases named : call = .recordFailedLogin ip
      · subst named
        by_cases within : time ≤ first + seconds 60
        · exact keeps (held.record within begun') (Or.inr within)
        · rw [staysBlocked_cons started, inWindow_cons]
          constructor
          · rintro ⟨_, stays⟩
            have other : LimitCall.recordFailedLogin ip ≠ .clearLoginAttempts ip :=
              fun impossible => nomatch impossible
            have blocked := stays other [] rest time rfl
              (fun _ member => nomatch member) (fun _ member => nomatch member) (Nat.le_refl _) early
            have lifted := held.reset within early
            exact absurd (lifted.symm.trans blocked) Bool.false_ne_true
          · rintro ⟨inside, _⟩
            exact absurd (inside rfl early) within
      · by_cases cleared : call = .clearLoginAttempts ip
        · rw [staysBlocked_cons started, inWindow_cons]
          constructor
          · exact fun _ => ⟨fun records => absurd records named, fun other => absurd cleared other⟩
          · exact fun _ => ⟨here, fun other => absurd cleared other⟩
        · exact keeps (held.idle early named cleared) (Or.inl named)
    · have late : ∀ other ∈ (time, call) :: rest, deadline < other.1 := by
        intro other member
        rcases List.mem_cons.mp member with rfl | member
        · omega
        · have next := following other member
          omega
      rw [staysBlocked_of_late late]
      exact ⟨fun _ => inWindow_of_late late, fun _ => here⟩

/-- The first failure at `time` has just set the block. -/
def SetsBlock (ip : String) (before : List Timed) (time : Nat) (record : LoginAttempt) : Prop :=
  performAll (before ++ [(time, .recordFailedLogin ip)]) (fun _ => none) ip = some record ∧
    maxLoginAttempts ≤ record.count

theorem performAll_append (calls more : List Timed) (attempts : LoginAttempts) :
    performAll (calls ++ more) attempts = performAll more (performAll calls attempts) := by
  induction calls generalizing attempts with
  | nil => rfl
  | cons call rest ih => exact ih _

/-- A failure that leaves a full count has set the deadline. -/
theorem recordFailedLogin_full {record : LoginAttempt}
    (found : recordFailedLogin attempts now ip ip = some record)
    (reached : maxLoginAttempts ≤ record.count) :
    record.blockedUntil = now + seconds blockDurationSec := by
  obtain ⟨counted, same⟩ : ∃ counted : LoginAttempt, recordFailedLogin attempts now ip ip =
      some (if counted.count ≥ maxLoginAttempts then
        { counted with blockedUntil := now + seconds blockDurationSec } else counted) := by
    unfold recordFailedLogin
    exact ⟨_, Function.update_self _ _ _⟩
  rw [same] at found
  cases found
  by_cases full : counted.count ≥ maxLoginAttempts
  · rw [if_pos full]
  · rw [if_neg full] at reached
    exact absurd reached full

theorem SetsBlock.held {before : List Timed} {time : Nat} {record : LoginAttempt}
    (sets : SetsBlock ip before time record) :
    Held ip record.firstAttempt (time + seconds blockDurationSec)
      (performAll (before ++ [(time, .recordFailedLogin ip)]) fun _ => none) := by
  obtain ⟨found, reached⟩ := sets
  have last := found
  rw [performAll_append] at last
  have deadline := recordFailedLogin_full last reached
  exact ⟨record, found, reached, rfl, Nat.le_of_eq deadline.symm⟩

/-- Once a failure has set the block, it lasts for its 300 s, whatever is called in between
but `clear_login_attempts`, exactly if every further failure up to then is recorded within a
minute of the first attempt. -/
theorem block_lasts_iff (ip : String) (before later : List Timed) (time : Nat) (record : LoginAttempt)
    (ordered : InOrder (before ++ (time, .recordFailedLogin ip) :: later))
    (sets : SetsBlock ip before time record) :
    StaysBlocked ip time (time + seconds blockDurationSec)
        (performAll (before ++ [(time, .recordFailedLogin ip)]) fun _ => none) later ↔
      InWindow ip record.firstAttempt (time + seconds blockDurationSec) later := by
  have tail : InOrder ((time, LimitCall.recordFailedLogin ip) :: later) :=
    (List.pairwise_append.mp ordered).2.1
  obtain ⟨after, sorted⟩ := List.pairwise_cons.mp tail
  exact staysBlocked_iff later sets.held (Nat.le_refl _) sorted after

/-! ## Six logins in flight -/

/-- The address of the failures below. -/
def address : String := "10.0.0.1"

/-- A failure of the address in that second. -/
def failure (second : Nat) : Timed := (seconds second, .recordFailedLogin address)

/-- The fifth failure comes in second 59. -/
theorem sets_block_at_59 : SetsBlock address [failure 1, failure 59, failure 59, failure 59] (seconds 59)
    ⟨5, seconds 1, seconds 359⟩ := by
  constructor
  · rfl
  · exact Nat.le_refl 5

/-- A sixth one in second 60 leaves the block as long as it is. -/
theorem block_lasts_sixth :
    StaysBlocked address (seconds 59) (seconds 59 + seconds blockDurationSec)
      (performAll ([failure 1, failure 59, failure 59, failure 59] ++
        [(seconds 59, .recordFailedLogin address)]) fun _ => none) [failure 60] := by
  apply (block_lasts_iff address _ _ _ _ (by unfold InOrder; decide) sets_block_at_59).mpr
  intro earlier now rest split _ _
  cases earlier with
  | nil =>
    cases split
    decide
  | cons head tail =>
    cases tail <;> cases split

/-- One in second 62 lifts it. -/
theorem sixth_failure_lifts_block :
    ¬ ∀ ip before later time record,
      InOrder (before ++ (time, .recordFailedLogin ip) :: later) → SetsBlock ip before time record →
        ∀ earlier now rest, later = earlier ++ (now, .isRateLimited ip) :: rest →
          Uncleared ip earlier → now ≤ time + seconds blockDurationSec →
            (isRateLimited (performAll (before ++ (time, .recordFailedLogin ip) :: earlier)
              fun _ => none) now ip).1 = true := by
  intro always
  have blocked := always address [failure 1, failure 59, failure 59, failure 59]
    [failure 62, (seconds 63, .isRateLimited address)] (seconds 59) ⟨5, seconds 1, seconds 359⟩
    (by unfold InOrder; decide) sets_block_at_59 [failure 62] (seconds 63) [] rfl
    (by unfold Uncleared; decide) (by decide)
  have lifted : (isRateLimited (performAll ([failure 1, failure 59, failure 59, failure 59] ++
      (seconds 59, .recordFailedLogin address) :: [failure 62]) fun _ => none) (seconds 63)
      address).1 = false := by decide +kernel
  rw [lifted] at blocked
  cases blocked

end LinuxChat.Guarantees.BlockDuration
