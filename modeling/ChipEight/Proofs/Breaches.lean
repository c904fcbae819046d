import ChipEight.Proofs.Bounds
import ChipEight.Proofs.Guarded
import ChipEight.Proofs.Window

/-!
# There is no breach

A guarded machine that is in bounds does what a machine does. There is one law for each part of it:
an access has an index in range because its address wraps, because a register has only sixteen
names, or because there are no more return addresses than slots; a sum fits because both of its
parts are addresses or bytes; and what loops do to memory, registers and display is what a store, a
replacement and a drawing do.
-/

namespace ChipEight.Guarded

@[simp] theorem pure_eq {α : Type} (a : α) : (pure a : Guarded α) = .ok a := rfl

@[simp] theorem ok_bind {α β : Type} (a : α) (f : α → Guarded β) :
    (Except.ok a : Guarded α) >>= f = f a := rfl

/-! ### Checks -/

theorem check_of {c : Prop} [Decidable c] (h : c) (breach : Breach) : check c breach = .ok () :=
  if_pos h

theorem get_of_lt {α : Type} {n i : Nat} (h : i < n) (breach : Nat → Breach) (v : Vector α n) :
    get breach v i = .ok v[i] :=
  dif_pos h

theorem set_of_lt {α : Type} {n i : Nat} (h : i < n) (breach : Nat → Breach) (v : Vector α n) (a : α) :
    set breach v i a = .ok (v.set i a) :=
  dif_pos h

theorem sum_of_lt {a b : Nat} (h : a + b < 0x10000) : sum a b = .ok (a + b) := by
  rw [sum, check_of h]
  rfl

/-- A loop none of whose steps is a breach. -/
theorem foldlM_of_forall {α β : Type} {f : β → α → Guarded β} {g : β → α → β} {l : List α}
    (h : ∀ a ∈ l, ∀ b, f b a = .ok (g b a)) (b : β) : l.foldlM f b = .ok (l.foldl g b) := by
  induction l generalizing b with
  | nil => rfl
  | cons a l ih =>
    rw [List.foldlM_cons, h a List.mem_cons_self, ok_bind, List.foldl_cons]
    exact ih (fun a ha => h a (List.mem_cons_of_mem _ ha)) _

theorem mapM_ok {α β : Type} (f : α → β) (l : List α) :
    l.mapM (fun a => (.ok (f a) : Guarded β)) = .ok (l.map f) :=
  List.mapM_pure

/-! ### Arrays of a machine -/

@[simp] theorem read_eq (memory : Memory) (a : Nat) : read memory a = .ok (memory.get a) :=
  get_of_lt (Address.wrap_lt a) _ _

@[simp] theorem write_eq (memory : Memory) (a : Nat) (b : UInt8) :
    write memory a b = .ok (memory.set a b) := by
  rw [write, set_of_lt (Address.wrap_lt a)]
  rfl

@[simp] theorem register_eq (registers : Registers) (x : Register) :
    register registers x = .ok (registers.get x) :=
  get_of_lt x.isLt _ _

@[simp] theorem register_zero (registers : Registers) : register registers 0 = .ok (registers.get 0) :=
  register_eq registers 0

@[simp] theorem put_eq (registers : Registers) (x : Register) (b : UInt8) :
    put registers x b = .ok (registers.set x b) := by
  rw [put, set_of_lt x.isLt]
  rfl

@[simp] theorem put_flag (registers : Registers) (b : UInt8) :
    put registers 15 b = .ok (registers.set Registers.flag b) :=
  put_eq registers Registers.flag b

theorem pixel_eq (display : Display) (x y : Nat) : pixel display x y = .ok (display.get x y) :=
  get_of_lt (Display.position_lt x y) _ _

@[simp] theorem isHeld_eq (keypad : Keypad) (b : UInt8) :
    isHeld keypad (b.toNat % keyCount) = .ok (keypad.isHeld (Key.ofByte b)) := by
  rw [isHeld, check_of (Nat.mod_lt _ (by decide))]
  rfl

theorem setKey_eq (keypad : Keypad) (k : Key) (down : Bool) :
    setKey keypad k down = .ok (keypad.set k down) := by
  rw [setKey, check_of k.isLt]
  rfl

/-! ### Instructions -/

theorem next_eq {a : Address} (h : a < memorySize) : next a = .ok (Address.next a) := by
  rw [next, sum_of_lt]
  · rfl
  · exact Nat.lt_of_lt_of_le (Nat.add_lt_add_right h _) (by decide)

/-- Out of bounds there may be a breach: after the last number of sixteen bits there is no next one. -/
example : next 0xFFFF = .error (.sum 0xFFFF 2) := rfl

/-- The sum of an address and a byte has room. -/
theorem sum_address {a : Address} (h : a < memorySize) (b : UInt8) :
    sum a b.toNat = .ok (a + b.toNat) :=
  sum_of_lt (Nat.lt_of_lt_of_le (Nat.add_lt_add h b.toNat_lt) (by decide))

theorem skipIf_eq {m : Machine} (h : m.pc < memorySize) (c : Bool) :
    skipIf m c = .ok (m.skipIf c) := by
  cases c with
  | false => rfl
  | true =>
    rw [skipIf, next_eq h]
    rfl

theorem math_eq (m : Machine) (rule : Arith) (x y : Register) :
    math m (.arith rule x y) x y = .ok (m.compute rule x y) := by
  simp only [math, register_eq, ok_bind, pure_eq, put_eq]
  cases rule <;> simp [Machine.compute, Machine.put, Arith.eval]

/-- An instruction of another kind would be a breach. -/
example (m : Machine) : math m .clear 0 1 = .error (.unit .clear) := rfl

/-! ### Loops -/

/-- A row of a sprite turns over the pixels that it strikes. -/
theorem drawRow_eq (x y : Nat) (bits : UInt8) (s : Display × Bool) :
    drawRow x y bits s = .ok ((Display.strikesRow x y bits).foldl Display.strike s) := by
  rw [drawRow, foldlM_of_forall (g := fun s c =>
    if bits.toNat.testBit (Display.spriteWidth - 1 - c) then Display.strike s (x + c, y) else s)]
  · rw [Display.strikesRow, List.foldl_map, List.foldl_filter]
  · rintro c - ⟨display, hit⟩
    dsimp only
    split
    · rw [pixel_eq, ok_bind, set_of_lt (Display.position_lt _ _)]
      rfl
    · rfl

/-- A sprite is drawn as the display draws it. -/
theorem draw_eq (x y : Nat) (sprite : List UInt8) (s : Display × Bool) :
    draw x y sprite s = .ok ((Display.strikes x y sprite).foldl Display.strike s) := by
  induction sprite generalizing y s with
  | nil => rfl
  | cons bits rest ih =>
    rw [draw, drawRow_eq, ok_bind, ih, Display.strikes, List.foldl_append]

theorem drawSprite_eq (m : Machine) (x y : Register) (height : Nat) :
    drawSprite m x y height = .ok (m.drawSprite x y height) := by
  have sprite : ((List.range height).mapM fun r => read m.memory (m.index + r)) =
      .ok (m.memory.read m.index height) := by
    simp only [read_eq]
    exact mapM_ok _ _
  rw [drawSprite, register_eq, ok_bind, register_eq, ok_bind, sprite, ok_bind, draw_eq, ok_bind]
  simp only [put_flag]
  rfl

/-- Bytes stored one by one are stored as a list. -/
theorem store_concat (memory : Memory) (a : Address) (bytes : List UInt8) (b : UInt8) :
    memory.store a (bytes ++ [b]) = (memory.store a bytes).set (a + bytes.length) b := by
  induction bytes generalizing memory a with
  | nil => rfl
  | cons c rest ih =>
    rw [List.cons_append, Memory.store, ih, Memory.store, List.length_cons, Nat.add_right_comm]
    rfl

theorem foldl_set_eq_store (f : Nat → UInt8) (a : Address) (n : Nat) (memory : Memory) :
    (List.range n).foldl (fun memory v => memory.set (a + v) (f v)) memory =
      memory.store a ((List.range n).map f) := by
  induction n with
  | zero => rfl
  | succ n ih =>
    rw [List.range_succ, List.foldl_append, ih, List.map_append, List.map_singleton, store_concat,
      List.length_map, List.length_range]
    rfl

/-- Registers that are saved one by one are stored as a list of bytes. -/
theorem save_eq (registers : Registers) (a : Address) (x : Register) (memory : Memory) :
    save registers a (x + 1) memory = .ok (memory.store a (registers.upTo x)) := by
  let byte (v : Nat) : UInt8 := if h : v < 16 then registers.get ⟨v, h⟩ else 0
  have x_lt : (x : Nat) < 16 := x.isLt
  have bytes : registers.upTo x = (List.range (x + 1)).map byte := by
    refine List.ext_getElem ?_ fun v hv hv' => ?_
    · simp only [Registers.upTo, List.length_take, Registers.length_bytes, List.length_map,
        List.length_range]
      omega
    · rw [List.length_map, List.length_range] at hv'
      have v_lt : v < 16 := Nat.lt_of_lt_of_le hv' x_lt
      simp [Registers.upTo, Registers.bytes, byte, v_lt]
  rw [save, foldlM_of_forall (g := fun memory v => memory.set (a + v) (byte v)), foldl_set_eq_store,
    bytes]
  intro v hv memory
  have v_lt : v < 16 := Nat.lt_of_lt_of_le (List.mem_range.1 hv) x_lt
  have there : register registers v = .ok (byte v) := by
    simpa [byte, v_lt] using register_eq registers ⟨v, v_lt⟩
  rw [there, ok_bind, write_eq]

theorem get_foldl_set (f : Nat → UInt8) {n : Nat} (h : n ≤ 16) (registers : Registers) (y : Register) :
    ((List.range n).foldl
        (fun registers v => if h : v < 16 then registers.set ⟨v, h⟩ (f v) else registers)
        registers).get y =
      if (y : Nat) < n then f y else registers.get y := by
  induction n with
  | zero => rfl
  | succ n ih =>
    have room : n < 16 := h
    rw [List.range_succ, List.foldl_append, List.foldl_cons, List.foldl_nil, dif_pos room,
      Registers.get_set, ih (Nat.le_of_succ_le h)]
    by_cases hy : (y : Nat) = n
    · rw [if_pos (Fin.ext hy.symm), if_pos (by omega), hy]
    · rw [if_neg fun e => hy (congrArg Fin.val e).symm]
      exact if_congr (by omega) rfl rfl

/-- Registers that are restored one by one are replaced at once. -/
theorem restore_eq (memory : Memory) (a : Address) (x : Register) (registers : Registers) :
    restore memory a (x + 1) registers =
      .ok (registers.replaceUpTo x fun y => memory.get (a + y)) := by
  rw [restore, foldlM_of_forall (g := fun registers v =>
    if h : v < 16 then registers.set ⟨v, h⟩ (memory.get (a + v)) else registers)]
  · refine congrArg _ (Registers.ext fun y => ?_)
    rw [get_foldl_set (fun v => memory.get (a + v)) x.isLt, Registers.get_replaceUpTo]
    simp only [Nat.lt_succ_iff, Fin.le_def]
  · intro v hv registers
    have v_lt : v < 16 := Nat.lt_of_lt_of_le (List.mem_range.1 hv) x.isLt
    rw [read_eq, ok_bind, dif_pos v_lt]
    exact put_eq registers ⟨v, v_lt⟩ _

/-! ### Executing an instruction -/

/-- **An instruction is executed as a machine executes it.** -/
theorem execute_eq {m : Machine} (h : m.InBounds) (a : Address) {op : Op} (range : op.InRange) :
    execute m a op = .ok (m.execute a op) := by
  cases op with
  | ret =>
    cases hs : m.stack with
    | nil => simp [execute, pop, Machine.execute, hs]
    | cons back rest =>
      -- the last return address is in one of the slots, because the stack is not too deep
      have room : rest.length < stackLimit := by
        have depth := h.depth
        rw [hs] at depth
        exact depth
      simp [execute, pop, Machine.execute, hs, check_of room, Machine.goto]
  | call target =>
    by_cases room : m.stack.length < stackLimit
    · simp [execute, push, Machine.execute, Nat.not_le.2 room, room, check_of, Machine.goto]
    · simp [execute, push, Machine.execute, Nat.not_lt.1 room, room]
  | skipEqByte | skipNeByte | skipEq | skipNe | skipHeld | skipFree =>
    simp [execute, Machine.execute, skipIf_eq h.pc]
  | arith rule x y => simp [execute, Machine.execute, math_eq]
  | draw x y height => simp [execute, Machine.execute, drawSprite_eq]
  | jumpOffset target =>
    have target_lt : target < memorySize := range
    simp [execute, Machine.execute, sum_address target_lt]
  | awaitKey x =>
    cases hw : m.waiting <;> cases hl : m.keypad.latched <;>
      simp [execute, misc, Machine.execute, Machine.awaitKey_eq, hw, hl, Keypad.forget, Machine.goto]
  | addIndex x => simp [execute, misc, Machine.execute, sum_address h.index]
  | glyph x =>
    have fits : Font.start + (m.registers.get x).toNat % Font.count * Font.height < 0x10000 :=
      Nat.lt_trans (Font.glyphAddress_lt (m.registers.get x)) (by decide)
    simp [execute, misc, Machine.execute, sum_of_lt fits, Font.glyphAddress]
  | save x => simp [execute, misc, save_eq, Machine.execute, Machine.storeAtIndex]
  | restore x => simp [execute, misc, restore_eq, Machine.execute]
  | loadByte | addByte | readDelay => simp [execute, misc, Machine.execute, Machine.put]
  | random x mask => simp [execute, Machine.execute, Machine.randomize, Machine.put]
  | decimal x =>
    simp [execute, misc, Machine.execute, Machine.storeAtIndex, Machine.decimalDigits, Memory.store]
  | _ => simp [execute, misc, Machine.execute]

/-! ### Cycles and runs -/

theorem cycle_eq {m : Machine} (h : m.InBounds) : cycle m = .ok m.cycle := by
  have fetched : Word.ofBytes (m.memory.get m.pc) (m.memory.get (m.pc + 1)) = m.memory.fetch m.pc :=
    rfl
  simp only [cycle, read_eq, ok_bind, fetched, Machine.cycle]
  cases hop : Op.decode (m.memory.fetch m.pc) with
  | none => rfl
  | some op =>
    have executed := execute_eq (h.goto (Address.next_lt m.pc)) m.pc (Op.inRange_of_decode hop)
    simp only [next_eq h.pc, ok_bind, executed]
    rcases (m.goto (Address.next m.pc)).execute m.pc op with ⟨after, records, fault | ⟨⟩⟩ <;> rfl

theorem step_eq {m : Machine} (h : m.InBounds) : step m = .ok m.step := by
  have resumed : m.resume.InBounds := ⟨h.pc, h.index, h.depth, h.saved⟩
  rw [step, cycle_eq resumed]
  rfl

/-- **A run is a run of a machine**, since every cycle leaves the next one in bounds. -/
theorem run_eq {m : Machine} (h : m.InBounds) (n : Nat) : run n m = .ok (m.run n) := by
  induction n generalizing m with
  | zero => rfl
  | succ n ih =>
    have kept := h.cycle
    rw [run, Machine.run_succ, cycle_eq h]
    split
    · rfl
    · rcases hc : m.cycle with ⟨after, records, fault | _ | i⟩
      · rfl
      · rfl
      · -- the machine after the cycle is in bounds again, and the rest is a shorter run of it
        rw [hc] at kept
        simp only [ok_bind]
        split
        · rfl
        · rw [ih kept]
          rfl

/-! ### Programs -/

/-- Bytes that fit between an index and the end of memory are stored there. -/
theorem copy_eq {bytes : List UInt8} {i : Nat} (h : i + bytes.length ≤ memorySize) (memory : Memory) :
    copy memory i bytes = .ok (memory.store i bytes) := by
  induction bytes generalizing i memory with
  | nil => rfl
  | cons b rest ih =>
    rw [List.length_cons] at h
    have inside : i < memorySize := by omega
    have cell : memory.cells.set i b = (memory.set i b).cells := by
      simp [Memory.set, Address.wrap_of_lt inside]
    rw [copy, set_of_lt inside, ok_bind, cell, ih (by omega)]
    rfl

/-- Zeros behind a list are not seen. -/
theorem getD_append_zeros (bytes : List UInt8) (k n : Nat) :
    (bytes ++ List.replicate k 0).getD n 0 = bytes.getD n 0 := by
  rcases Nat.lt_or_ge n bytes.length with inside | beyond
  · exact List.getD_append _ _ _ _ inside
  · rw [List.getD_append_right _ _ _ _ beyond, List.getD_eq_default _ _ beyond]
    rcases Nat.lt_or_ge (n - bytes.length) k with among | behind
    · exact List.getD_replicate _ among
    · exact List.getD_eq_default _ _ (by simpa using behind)

/-- What is in memory with a program in place: the font, zeros, the program, and zeros again. -/
theorem get_ofProgram_eq {program : List UInt8} (h : program.length ≤ programLimit) {a : Address}
    (ha : a < memorySize) :
    (Memory.ofProgram program).get a =
      if a < programStart then Font.bytes.getD a 0 else program.getD (a - programStart) 0 := by
  have head : (Font.bytes ++ List.replicate (programStart - Font.bytes.length) 0).length = programStart := by
    rw [List.length_append, List.length_replicate, Font.length_bytes]
    rfl
  rw [Memory.get_ofProgram, Address.wrap_of_lt ha, Memory.image, List.take_of_length_le h]
  split
  · next below => rw [List.getD_append _ _ _ _ (by rwa [head]), getD_append_zeros]
  · next above =>
    rw [List.getD_append_right _ _ _ _ (by rw [head]; exact Nat.le_of_not_lt above), head,
      getD_append_zeros]

/-- The font in a memory of zeros. -/
theorem store_font :
    Memory.store ⟨Vector.replicate memorySize 0⟩ Font.start Font.bytes = Memory.blank := by
  refine Memory.ext fun a ha => ?_
  have zeros : (⟨Vector.replicate memorySize 0⟩ : Memory).get a = 0 := by simp [Memory.get]
  have there : Address.offset Font.start a = a := Address.offset_of_le (Nat.zero_le a) ha
  rw [Memory.get_store _ _ _ (by decide), zeros, there, Memory.blank,
    get_ofProgram_eq (Nat.zero_le _) ha]
  split
  · rfl
  · next above =>
    rw [List.getD_eq_default _ _ (Nat.le_trans (by decide) (Nat.le_of_not_lt above))]
    rfl

/-- A program in a memory with the font. -/
theorem store_program {program : List UInt8} (h : program.length ≤ programLimit) :
    Memory.blank.store programStart program = Memory.ofProgram program := by
  refine Memory.ext fun a ha => ?_
  rw [Memory.get_store _ _ _ (Nat.le_trans h (by decide)), Memory.blank,
    get_ofProgram_eq (Nat.zero_le _) ha, get_ofProgram_eq h ha]
  split
  · next below =>
    have apart : program.length ≤ Address.offset programStart a := by
      rw [Address.offset_of_lt below (by decide)]
      exact Nat.le_trans h (Nat.le_add_right _ _)
    exact List.getD_eq_default _ _ apart
  · next above =>
    rw [Address.offset_of_le (Nat.le_of_not_lt above) ha]
    rfl

theorem font_eq : font = .ok Memory.blank := by
  rw [font, copy_eq (by decide), store_font]

theorem create_eq (config : Config) (chance : StreamKey) :
    create config chance = .ok (Machine.create config chance) := by
  rw [create, font_eq]
  rfl

theorem load_eq (m : Machine) (program : List UInt8) : load m program = .ok (m.load program) := by
  rw [load, Machine.load]
  split
  · rfl
  · next fits =>
    have short : program.length ≤ programLimit := Nat.le_of_not_lt fits
    have room : programStart + program.length ≤ memorySize :=
      Nat.le_trans (Nat.add_le_add_left short _) (by decide)
    rw [font_eq, ok_bind, copy_eq room, store_program short]
    rfl

/-! ### Histories -/

theorem apply_eq {m : Machine} (h : m.InBounds) (e : Event) : apply m e = .ok (m.apply e) := by
  cases e with
  | load program =>
    rw [apply, load_eq]
    rfl
  | step =>
    rw [apply, step_eq h]
    rfl
  | run n =>
    rw [apply, run_eq h]
    rfl
  | key k down =>
    rw [apply, setKey_eq]
    rfl
  | _ => rfl

theorem replay_eq {m : Machine} (h : m.Reachable) (history : List Event) :
    replay m history = .ok (m.replay history) := by
  induction history generalizing m with
  | nil => rfl
  | cons e rest ih =>
    rw [replay, apply_eq h.inBounds, ok_bind, ih (h.apply e)]
    rfl

theorem dumpMemory_eq (m : Machine) (count : Nat) : dumpMemory m count = .ok (m.dumpMemory count) := by
  simp only [dumpMemory, read_eq, ok_bind, pure_eq, mapM_ok]
  rfl

/-! ### Nothing goes wrong -/

/-- **Nothing goes wrong, whatever is done to a machine.** Take any configuration and any history. The
program counter, the index and all return addresses are below 4096 at the end of it, and no more than
sixteen calls are open. The guarded machine gets through the history without a breach, with the same
replies, notes and machine. And it gets through whatever comes next: any event, the reading of any
address, any pixel and any key, and a dump of any length. -/
theorem never_breaches (config : Config) (chance : StreamKey) (history : List Event) :
    let m := (Machine.create config chance).after history
    (m.pc < 4096 ∧ m.index < 4096 ∧ m.stack.length ≤ 16 ∧ ∀ a ∈ m.stack, a < 4096) ∧
      play config chance history = .ok ((Machine.create config chance).replay history) ∧
      (∀ e, apply m e = .ok (m.apply e)) ∧
      (∀ a, read m.memory a = .ok (m.memory.get a)) ∧
      (∀ x y, pixel m.display x y = .ok (m.display.get x y)) ∧
      (∀ b, isHeld m.keypad (b.toNat % keyCount) = .ok (m.keypad.isHeld (Key.ofByte b))) ∧
      ∀ count, dumpMemory m count = .ok (m.dumpMemory count) := by
  intro m
  have start : (Machine.create config chance).Reachable := ⟨config, chance, [], rfl⟩
  have reached : m.Reachable := ⟨config, chance, history, rfl⟩
  have bounds := reached.inBounds
  refine ⟨⟨bounds.pc, bounds.index, bounds.depth, bounds.saved⟩, ?_, apply_eq bounds,
    read_eq m.memory, pixel_eq m.display, isHeld_eq m.keypad, dumpMemory_eq m⟩
  rw [play, create_eq, ok_bind]
  exact replay_eq start history

/-- A program that calls a routine, which draws two rows from the last cell of memory on. -/
def edgeSprite : List UInt8 := [0x22, 0x02, 0xAF, 0xFF, 0xD0, 0x02]

/-- With a call open and the index at the end of memory, the guarded machine draws around the end
and comes to the end of the program. -/
theorem never_breaches_edgeSprite :
    let m := (Machine.create {} 0).after [.load edgeSprite, .run 2]
    m.index = 0xFFF ∧ m.stack = [0x202] ∧ m.stack.length ≤ 16 ∧ (∀ a ∈ m.stack, a < 4096) ∧
      apply m (.run 5) = .ok (m.apply (.run 5)) := by
  intro m
  obtain ⟨⟨-, -, depth, saved⟩, -, applied, -⟩ := never_breaches {} 0 [.load edgeSprite, .run 2]
  exact ⟨by decide +kernel, by decide +kernel, depth, saved, applied _⟩

end ChipEight.Guarded
