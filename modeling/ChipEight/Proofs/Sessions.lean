import ChipEight.Console.Session
import ChipEight.Proofs.Laps

/-!
# Sessions whose clocks have no period

A session looks at two clocks in every turn. Where both have no period they are due whenever they are
looked at, and every turn is a lap (`turn_unthrottled`). The session asks for a step where the lap asks
for a run, and it checks the limit, the request to stop, the end of the program and the wait for a key
by itself and in an order of its own; `runFrom_unthrottled` says that it comes to the laps all the
same, and `drivers_agree` adds what a single long run does.
-/

namespace ChipEight

/-- What a session logs when it stops at an address. -/
def Stop.notice (a : Address) : Stop → Notice
  | .done => .stepLimit
  | .halted => .halted a
  | .interrupted => .interrupted a
  | .waiting => .keyMissing a

namespace Notice

/-- Why a session stopped, if that is what it logs. -/
def stop? : Notice → Option Stop
  | .stepLimit => some .done
  | .halted _ => some .halted
  | .interrupted _ => some .interrupted
  | .keyMissing _ => some .waiting
  | _ => none

/-- What the machine noted, if that is what is logged. -/
def record? : Notice → Option Record
  | .machine record => some record
  | _ => none

@[simp] theorem stop?_notice (a : Address) (stop : Stop) : (stop.notice a).stop? = some stop := by
  cases stop <;> rfl

@[simp] theorem record?_notice (a : Address) (stop : Stop) : (stop.notice a).record? = none := by
  cases stop <;> rfl

@[simp] theorem stop?_machine (record : Record) : (machine record).stop? = none := rfl

@[simp] theorem record?_machine (record : Record) : (machine record).record? = some record := rfl

@[simp] theorem record?_comp_machine : record? ∘ machine = some := rfl

end Notice

namespace Session

/-- The clocks of the session have no period. -/
structure Unthrottled (s : Session) : Prop where
  /-- Nothing makes an instruction wait. -/
  instructions : s.instructionClock.interval = 0
  /-- Nothing makes the timers wait. -/
  timers : s.timerClock.interval = 0

/-- The session in the middle of a lap: the clocks were looked at, the timers have ticked, and the
buzzer is in line with them. -/
def ticked (s : Session) (now : Instant) : Session :=
  { s with
    machine := s.machine.tick
    instructionClock := s.instructionClock.reset now
    timerClock := s.timerClock.reset now
    buzzer := s.machine.tick.isSounding }

/-- A session executes an instruction as a run of one cycle does. -/
theorem executeNext_eq (s : Session) :
    s.executeNext =
      let lap := s.machine.run 1
      let after := { s with machine := lap.machine }
      let noted := lap.records.map Notice.machine
      match lap.answer with
      | .error fault => ⟨after, noted, some (.error fault)⟩
      | .ok .done => ⟨{ after with executed := s.executed + 1 }, noted, none⟩
      | .ok stop => ⟨after, noted ++ [stop.notice s.machine.pc], some (.ok ())⟩ := by
  rw [executeNext, Machine.run_one]
  cases hi : s.machine.interrupted with
  | true => rfl
  | false =>
    rw [Machine.step_of_running hi]
    rcases s.machine.cycle_cases with ⟨-, hc⟩ | ⟨op, n, records, -, -, hc⟩ | ⟨op, fault, -, -, hc⟩
    · simp [hc, Stop.notice]
    · cases hw : n.waiting <;> simp [hc, hw, Stop.notice]
    · simp [hc]

/-- The session when the timers have ticked and the buzzer was looked at. -/
theorem soundBuzzer_tickTimers {s : Session} (h : s.Unthrottled) (now : Instant) :
    ∃ sounded : List Notice, sounded.filterMap Notice.stop? = [] ∧
      sounded.filterMap Notice.record? = [] ∧
      (s.tickTimers now).soundBuzzer =
        ({ s.ticked now with instructionClock := s.instructionClock }, sounded) := by
  have due : s.tickTimers now =
      { s with machine := s.machine.tick, timerClock := s.timerClock.reset now } := by
    rw [tickTimers, Clock.tick_of_interval_eq_zero h.timers]
    rfl
  rw [due, soundBuzzer]
  by_cases quiet : s.machine.tick.isSounding = s.buzzer
  · exact ⟨[], rfl, rfl, by rw [if_pos quiet, ticked, quiet]⟩
  · exact ⟨[.buzzer s.machine.tick.isSounding], rfl, rfl, by rw [if_neg quiet]; rfl⟩

/-- **A turn of a session without a pace is a lap**, but for what the buzzer has to say. -/
theorem turn_unthrottled {s : Session} (h : s.Unthrottled) (room : s.isSpent = false) (now : Instant) :
    ∃ sounded : List Notice, sounded.filterMap Notice.stop? = [] ∧
      sounded.filterMap Notice.record? = [] ∧
      s.turn now =
        { (s.ticked now).executeNext with notices := sounded ++ (s.ticked now).executeNext.notices } := by
  obtain ⟨sounded, noStop, noRecord, hs⟩ := soundBuzzer_tickTimers h now
  refine ⟨sounded, noStop, noRecord, ?_⟩
  have due : s.instructionClock.tick now = (true, s.instructionClock.reset now) :=
    Clock.tick_of_interval_eq_zero h.instructions now
  simp only [turn, room, hs, due]
  rfl

end Session

/-- A notice tells why the session stopped if it is the one for this reason. -/
theorem Notice.stop?_eq_some_iff {notice : Notice} {stop : Stop} :
    notice.stop? = some stop ↔ ∃ a, notice = stop.notice a := by
  cases notice <;> cases stop <;> simp [stop?, Stop.notice]

/-- The result of a session is what laps leave behind, when the session had executed some
instructions before. -/
structure Session.Result.Follows (r : Result) (executed : Nat)
    (laps : Outcome (Nat × Except Fault Stop)) : Prop where
  /-- The session ends with the machine of the laps. -/
  machine : r.session.machine = laps.machine
  /-- It counts the laps that went all the way. -/
  executed : r.session.executed = executed + laps.answer.1
  /-- It logs what the machine notes. -/
  records : r.notices.filterMap Notice.record? = laps.records
  /-- It logs once why it stops, unless it fails. -/
  stops : r.notices.filterMap Notice.stop? = laps.answer.2.toOption.toList
  /-- It fails as the laps fail. -/
  answer : r.answer = laps.answer.2.map fun _ => ()

namespace Session

/-- **A session without a pace is a row of laps.** If it may execute `n` more instructions and take more
turns than that, it comes to an end, and to the one of `n` laps. -/
theorem runFrom_unthrottled (timeline : Nat → Instant) (n : Nat) {turns k : Nat} {s : Session}
    (h : s.Unthrottled) (limit : s.limit = some (s.executed + n)) (enough : n < turns) :
    ∃ r, runFrom timeline turns k s [] = some r ∧ r.Follows s.executed (Machine.laps n s.machine) := by
  induction n generalizing turns k s with
  | zero =>
    obtain ⟨turns, rfl⟩ := Nat.exists_eq_succ_of_ne_zero (Nat.ne_of_gt enough)
    have spent : s.turn (timeline k) = ⟨s, [.stepLimit], some (.ok ())⟩ := by
      simp [turn, isSpent, limit]
    rw [runFrom_succ, spent]
    exact ⟨_, rfl, rfl, rfl, rfl, rfl, rfl⟩
  | succ n ih =>
    obtain ⟨turns, rfl⟩ := Nat.exists_eq_succ_of_ne_zero (Nat.ne_of_gt (Nat.zero_lt_of_lt enough))
    have room : s.isSpent = false := by simp [isSpent, limit]
    obtain ⟨sounded, noStop, noRecord, ht⟩ := turn_unthrottled h room (timeline k)
    have lap : (s.ticked (timeline k)).machine.run 1 = s.machine.tick.run 1 := rfl
    rw [runFrom_succ, ht, executeNext_eq, lap]
    simp only [Machine.laps]
    rcases s.machine.tick.run 1 with ⟨after, records, fault | stop⟩
    · refine ⟨_, rfl, rfl, rfl, ?_, ?_, rfl⟩
      · simp [noRecord]
      · simp [noStop, Except.toOption]
    · cases stop with
      | done =>
        -- the lap went all the way, and the session goes on with one instruction less before it
        let next : Session :=
          { s.ticked (timeline k) with machine := after, executed := s.executed + 1 }
        have left : next.limit = some (next.executed + n) :=
          limit.trans (congrArg some (Nat.succ_add_eq_add_succ _ n).symm)
        obtain ⟨r, hr, follows⟩ := ih (k := k + 1) (s := next) ⟨h.instructions, h.timers⟩ left
          (Nat.lt_of_succ_lt_succ enough)
        change r.Follows (s.executed + 1) (Machine.laps n after) at follows
        refine ⟨_, congrArg (Option.map _) hr, follows.machine, ?_, ?_, ?_, follows.answer⟩
        · exact follows.executed.trans (Nat.succ_add_eq_add_succ _ _)
        · simp [noRecord, follows.records]
        · simp [noStop, follows.stops]
      | _ =>
        refine ⟨_, rfl, rfl, rfl, ?_, ?_, rfl⟩
        · simp [noRecord]
        · simp [noStop, Except.toOption]

end Session

/-! ### Two drivers -/

/-- What a session logs at its end says how a run ended, and it fails as the run fails. -/
structure Session.Result.Reports (r : Result) (answer : Except Fault Stop) : Prop where
  /-- The notice for a reason to stop is there just if it was the reason. -/
  stops (stop : Stop) : (∃ a, stop.notice a ∈ r.notices) ↔ answer = .ok stop
  /-- A fault comes through. -/
  fails (fault : Fault) : r.answer = .error fault ↔ answer = .error fault

theorem Session.Result.Follows.reports {r : Result} {executed : Nat}
    {laps : Outcome (Nat × Except Fault Stop)} (h : r.Follows executed laps) :
    r.Reports laps.answer.2 where
  stops stop := by
    have logged : (∃ a, stop.notice a ∈ r.notices) ↔ stop ∈ r.notices.filterMap Notice.stop? := by
      simp only [List.mem_filterMap, Notice.stop?_eq_some_iff]
      constructor
      · rintro ⟨a, ha⟩
        exact ⟨_, ha, a, rfl⟩
      · rintro ⟨_, hn, a, rfl⟩
        exact ⟨a, hn⟩
    rw [logged, h.stops]
    cases laps.answer.2 <;> simp [Except.toOption, eq_comm]
  fails fault := by
    rw [h.answer]
    cases laps.answer.2 <;> simp [Except.map]

/-- **Two drivers agree.** Take any machine whose clocks have no period, and a session of at most `n`
instructions. It comes to an end after at most `n + 1` turns, and it is a row of up to `n` laps: it ends
with the machine they lead to, having logged what that notes on the way; it counts the laps that went
all the way, which are all `n` of them just if the limit was reached; and what it reports is how the last
one ended. If no delay timer is read in these laps, or in a single run of `n` cycles, then the session
reports the outcome of that run, and the two end with machines that differ in nothing but the timers. -/
theorem Session.drivers_agree (m : Machine) (n turns : Nat) (now : Instant) (timeline : Nat → Instant)
    (instructions : period m.config.instructionFrequency = 0)
    (timers : period m.config.timerFrequency = 0) (enough : n < turns) :
    let laps := m.laps n
    ∃ r, (Session.start m (some n) now).run timeline turns = some r ∧
      r.session.machine = laps.machine ∧ r.notices.filterMap Notice.record? = laps.records ∧
      laps.machine = m.after (m.lapEvents n) ∧ laps.records = (m.replay (m.lapEvents n)).records ∧
      r.session.executed = laps.answer.1 ∧ laps.answer.1 ≤ n ∧
      (laps.answer.2 = .ok .done ↔ laps.answer.1 = n) ∧ r.Reports laps.answer.2 ∧
      ((∀ t ∈ m.moments (m.lapEvents n), t.readsDelay = false) ∨
          (∀ t ∈ m.moments [.run n], t.readsDelay = false) →
        r.Reports (m.run n).answer ∧ r.notices.filterMap Notice.record? = (m.run n).records ∧
          ∃ left, r.session.machine = { (m.run n).machine with timers := left }) := by
  intro laps
  obtain ⟨r, hr, follows⟩ := runFrom_unthrottled timeline n (k := 0)
    (s := Session.start m (some n) now) ⟨instructions, timers⟩
    (congrArg some (Nat.zero_add n).symm) enough
  obtain ⟨few, all⟩ := m.count_laps n
  obtain ⟨ends, notes⟩ := m.replay_lapEvents n
  refine ⟨r, hr, follows.machine, follows.records, ends.symm, notes.symm,
    follows.executed.trans (Nat.zero_add _), few, all, follows.reports, fun unread => ?_⟩
  obtain ⟨sameAnswer, sameRecords, left, sameMachine⟩ :=
    m.laps_untimed n m.timers (unread.imp_right fun h => by
      simpa [Machine.moments, Machine.moves, Machine.movesOf] using h)
  refine ⟨?_, ?_, left, ?_⟩
  · rw [← sameAnswer]
    exact follows.reports
  · rw [← sameRecords]
    exact follows.records
  · rw [follows.machine]
    exact sameMachine

/-- A program that sets both timers to five, and then stays at one place. -/
def tune : List UInt8 := [0x61, 0x05, 0xF1, 0x15, 0xF1, 0x18, 0x12, 0x06]

/-- Six instructions of it, without a pace: the session reaches its limit, and ends where a run of six
cycles ends, but for the timers, which have ticked meanwhile. -/
theorem Session.drivers_agree_tune :
    let m := (Machine.create { clockFrequency := some 0, timerFrequency := 0 } 0).after [.load tune]
    period m.config.instructionFrequency = 0 ∧ period m.config.timerFrequency = 0 ∧
      (∀ t ∈ m.moments (m.lapEvents 6), t.readsDelay = false) ∧
      ∃ r, (Session.start m (some 6) 0).run id 7 = some r ∧ r.session.executed = 6 ∧
        .stepLimit ∈ r.notices ∧ r.session.machine.timers = ⟨1, 2⟩ ∧ (m.run 6).machine.timers = ⟨5, 5⟩ ∧
        r.session.machine = { (m.run 6).machine with timers := ⟨1, 2⟩ } := by
  intro m
  have instructions : period m.config.instructionFrequency = 0 := by decide +kernel
  have timers : period m.config.timerFrequency = 0 := by decide +kernel
  have unread : ∀ t ∈ m.moments (m.lapEvents 6), t.readsDelay = false := by decide +kernel
  obtain ⟨r, hr, hm, -, -, -, executed, -, all, -, agree⟩ :=
    drivers_agree m 6 7 0 id instructions timers (by decide)
  obtain ⟨reports, -, left, same⟩ := agree (Or.inl unread)
  have done : (m.laps 6).answer.2 = .ok .done := by decide +kernel
  have reached : (m.run 6).answer = .ok .done := by decide +kernel
  have ticked : r.session.machine.timers = ⟨1, 2⟩ := by
    rw [hm]
    decide +kernel
  obtain ⟨_, limit⟩ := (reports.stops .done).2 reached
  refine ⟨instructions, timers, unread, r, hr, executed.trans (all.1 done), limit, ticked,
    by decide +kernel, ?_⟩
  rw [← ticked, same]

end ChipEight
