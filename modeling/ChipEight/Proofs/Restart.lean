import ChipEight.Proofs.RandomWords
import ChipEight.Proofs.Slots

/-!
# Nothing of the past is left

A load makes a machine start anew. Of what was before it keeps the configuration, the keys that are
held and the random words that are still to come; all else is as after switching on (`StartOf`). No
move changes the configuration or the stream of random words, so two machines that were set up alike
can only differ in how far they have read the stream and in the keys. If they agree in these two, no
history after a load can tell what the one and the other did before (`load_forgets`).
-/

namespace ChipEight.Machine

/-! ### What no move changes -/

/-- No move changes the configuration or the stream of random words. -/
theorem setup_make (m : Machine) (move : Move) :
    (m.make move).config = m.config ∧ (m.make move).generator.key = m.generator.key := by
  constructor
  · cases hr : move.reloads with
    | true =>
      obtain ⟨program, -, restarted⟩ := make_of_reloads (m := m) hr
      rw [restarted]
      rfl
    | false =>
      cases move with
      | load program => rw [make_load hr]
      | cycle => exact m.cycle_frame (p := .config) fun op => by cases op <;> rfl
      | _ => rfl
  · -- what was read of the stream may have changed, but not the stream
    have read := generator_after ⟨m, move⟩
    rw [Moment.after] at read
    rw [read]
    split <;> rfl

/-- A machine has the configuration that it was created with, and the stream of its key. -/
theorem setup_after (config : Config) (chance : StreamKey) (history : List Event) :
    ((create config chance).after history).config = config ∧
      ((create config chance).after history).generator.key = config.streamKey chance := by
  rw [← perform_moves]
  refine perform_induction (P := fun m => m.config = config ∧
    m.generator.key = config.streamKey chance) ?_ ⟨rfl, rfl⟩ _
  intro m move h
  obtain ⟨sameConfig, sameKey⟩ := m.setup_make move
  exact ⟨sameConfig.trans h.1, sameKey.trans h.2⟩

/-! ### Starting anew -/

/-- All that a program finds when it starts, but for the keys that are held and the random words. -/
structure StartOf (program : List UInt8) (m : Machine) : Prop where
  /-- The font is at the start of memory. -/
  font : ∀ (a : Nat) (h : a < 80), m.memory.get a = Font.bytes[a]
  /-- Behind it there are zeros. -/
  below : ∀ a : Nat, 80 ≤ a → a < 0x200 → m.memory.get a = 0
  /-- Then comes the program. -/
  loaded : ∀ (i : Nat) (h : i < program.length), m.memory.get (0x200 + i) = program[i]
  /-- There are zeros up to the end of memory. -/
  above : ∀ a : Nat, 0x200 + program.length ≤ a → a < 4096 → m.memory.get a = 0
  /-- The first instruction is the first one of the program. -/
  pc : m.pc = 0x200
  /-- No call is open. -/
  stack : m.stack = []
  /-- All registers are zero. -/
  registers : ∀ x, m.registers.get x = 0
  /-- So is the index. -/
  index : m.index = 0
  /-- Both timers rest. -/
  timers : m.timers.delay = 0 ∧ m.timers.sound = 0
  /-- All pixels are dark. -/
  display : ∀ x y, m.display.get x y = false
  /-- The machine does not wait. -/
  waiting : m.waiting = false
  /-- No press is remembered. -/
  latched : m.keypad.latched = none
  /-- The machine was not asked to stop. -/
  interrupted : m.interrupted = false

/-- A machine that starts anew is at the start of the program. -/
theorem startOf_restart (m : Machine) {program : List UInt8} (fits : program.length ≤ programLimit) :
    StartOf program (m.restart program) := by
  have room : program.length ≤ 3584 := fits
  have cell : ∀ a : Nat, a < 4096 → (m.restart program).memory.get a =
      if a < 0x200 then Font.bytes.getD a 0 else program.getD (a - 0x200) 0 :=
    fun a ha => Guarded.get_ofProgram_eq fits ha
  refine ⟨fun a ha => ?_, fun a from_font ha => ?_, fun i hi => ?_, fun a behind ha => ?_, rfl, rfl,
    Registers.get_zero, rfl, ⟨rfl, rfl⟩, Display.get_dark, rfl, rfl, rfl⟩
  · exact (cell a (by omega)).trans ((if_pos (by omega)).trans (List.getD_eq_getElem _ _ ha))
  · rw [cell a (by omega), if_pos ha, List.getD_eq_default _ _ from_font]
  · rw [cell _ (by omega), if_neg (by omega), Nat.add_sub_cancel_left, List.getD_eq_getElem]
  · rw [cell a ha, if_neg (by omega), List.getD_eq_default _ _ (by omega)]

/-- Machines that were set up alike, have read as far in their streams and have the same keys held are
the same when they start anew. -/
theorem restart_eq {m n : Machine} (config : n.config = m.config)
    (key : n.generator.key = m.generator.key) (taken : n.generator.taken = m.generator.taken)
    (held : n.keypad.held = m.keypad.held) (program : List UInt8) :
    n.restart program = m.restart program := by
  have generator : n.generator = m.generator := congrArg₂ Generator.mk key taken
  rw [restart, restart, config, generator, Keypad.forget, Keypad.forget, held]

/-! ### Two pasts -/

/-- **A load forgets the past.** Take any machine with a history, and a program of at most 3584 bytes.
The machine takes it, and is then at the start of the program: it is what a new machine of the same
configuration is after this load, but for the keys that are held and the random words to come, which
are its own. Of a machine with slots for its return addresses, no slot in use is left and none that
holds anything. So take another machine of this configuration and with the same random words, and any
history of it, and let the two have read as many random words and have the same keys held. Then they
answer and note the same to this load and to whatever comes after it, and they end up the same. -/
theorem load_forgets (config : Config) (chance : StreamKey) (past : List Event) (program : List UInt8)
    (fits : program.length ≤ 3584) :
    let start := create config chance
    let fresh := (start.load program).machine
    let m := start.after past
    let loaded := (m.load program).machine
    let slotted := ((Slotted.create config chance).perform (start.moves past)).load program
    (m.load program).answer = .ok () ∧
      loaded = { fresh with
        keypad := { fresh.keypad with held := m.keypad.held }
        generator := m.generator } ∧
      loaded.StartOf program ∧
      slotted.machine = loaded ∧ slotted.slots = Slots.clear ∧
      ∀ chance' past', config.streamKey chance' = config.streamKey chance →
        let n := (create config chance').after past'
        n.generator.taken = m.generator.taken → n.keypad.held = m.keypad.held →
          ∀ future, n.replay (.load program :: future) = m.replay (.load program :: future) := by
  intro start fresh m loaded slotted
  have takes (k : Machine) := k.load_of_fits fits
  obtain ⟨config_m, key_m⟩ := setup_after config chance past
  have restarted : loaded = m.restart program := congrArg Outcome.machine (takes m)
  have renewed : fresh = start.restart program := congrArg Outcome.machine (takes start)
  refine ⟨congrArg Outcome.answer (takes m), ?_, ?_, ?_, Slotted.slots_load _ fits, ?_⟩
  · have config_eq : m.config = start.config := config_m
    rw [restarted, renewed, restart, restart, config_eq]
    rfl
  · rw [restarted]
    exact m.startOf_restart fits
  · rw [Slotted.machine_load, Slotted.machine_perform, Slotted.machine_create, perform_moves]
  · intro chance' past' key n taken held future
    obtain ⟨config_n, key_n⟩ := setup_after config chance' past'
    have same : n.restart program = m.restart program := by
      refine restart_eq (config_n.trans config_m.symm) ?_ taken held program
      rw [key_n, key_m, key]
    simp only [replay, apply, takes, Outcome.map, same]

/-- A program that takes a random word, and then calls itself until the stack is full. -/
def fullStack : List UInt8 := [0xC0, 0xFF, 0x22, 0x02]

/-- A program that takes a random word, and then waits for a key. -/
def endlessWait : List UInt8 := [0xC0, 0xFF, 0xF3, 0x0A]

/-- One machine has a full stack and was asked to stop, the other one waits and has a press before it.
When a program is loaded, nobody can tell the one from the other. -/
theorem load_forgets_wait :
    let m := (create {} 0).after [.load fullStack, .run 20, .key 3 true, .interrupt]
    let n := (create {} 0).after [.load endlessWait, .run 20, .key 3 true]
    m.stack.length = 16 ∧ m.interrupted = true ∧ n.waiting = true ∧ n.keypad.latched = some 3 ∧
      (m.load [0xF1, 0x0A]).machine.StartOf [0xF1, 0x0A] ∧
      ∀ future, n.replay (.load [0xF1, 0x0A] :: future) = m.replay (.load [0xF1, 0x0A] :: future) := by
  intro m n
  obtain ⟨-, -, anew, -, -, alike⟩ :=
    load_forgets {} 0 [.load fullStack, .run 20, .key 3 true, .interrupt] [0xF1, 0x0A] (by decide)
  have taken : n.generator.taken = m.generator.taken := by decide +kernel
  have held : n.keypad.held = m.keypad.held := by decide +kernel
  exact ⟨by decide +kernel, rfl, by decide +kernel, by decide +kernel, anew,
    alike 0 [.load endlessWait, .run 20, .key 3 true] rfl taken held⟩

end ChipEight.Machine
