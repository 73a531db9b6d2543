/-
This file says what a machine does to its memory: a word reads some bytes, or stores some values, or
leaves the memory alone. So the glyphs stay, whatever programs do and whatever a host writes.
-/

import ChipEight.Proofs.Machine.Execution
import ChipEight.Proofs.Machine.Frame
import ChipEight.Proofs.Memory.Glyphs

namespace ChipEight

/-- Memories that give the same byte at each address have the same bytes. -/
theorem Memory.bytes_eq_of_byteAt {first second : Memory}
    (bytes : ∀ place, first.byteAt place = second.byteAt place) : first.bytes = second.bytes := by
  apply Vector.ext
  intro place inside
  have found : cell? place = some ⟨place, inside⟩ := dif_pos ⟨by omega, by omega⟩
  have here := bytes place
  rw [byteAt_found first found, byteAt_found second found] at here
  exact here

/-- Memories with the same bytes, zones and count of accesses are the same. -/
theorem Memory.eq_of_byteAt {first second : Memory}
    (bytes : ∀ place, first.byteAt place = second.byteAt place)
    (zones : first.zones = second.zones) (accesses : first.accesses = second.accesses) :
    first = second := by
  have same : first.bytes = second.bytes := bytes_eq_of_byteAt bytes
  cases first
  cases second
  simp_all

namespace Machine

/-- What a word does to the memory. -/
inductive MemoryStep (before : Memory) : Memory → Prop where
  | keep : MemoryStep before before
  | read (place : Int) (count : Nat) : MemoryStep before (before.readEach place count).memory
  | store (place : Int) (values : List Int) :
      MemoryStep before (storeEach before place values).memory

theorem readRange_memoryStep (memory : Memory) (room : Nat) (place count : Int) :
    MemoryStep memory (memory.readRange room place count).memory := by
  unfold Memory.readRange
  split
  · exact .read place count.toNat
  · exact .keep

theorem draw_memoryStep (machine : Machine) (x y : Register) (rows : Fin 16) :
    MemoryStep machine.memory (machine.draw x y rows).machine.memory := by
  unfold draw
  split
  case isTrue => exact .keep
  split
  case isTrue => exact .keep
  case isFalse =>
    dsimp only
    split
    case h_1 => exact readRange_memoryStep _ _ _ _
    case h_2 => split <;> exact readRange_memoryStep _ _ _ _

theorem storeDigits_memoryStep (machine : Machine) (x : Register) :
    MemoryStep machine.memory (machine.storeDigits x).machine.memory := by
  unfold storeDigits
  split
  · exact .keep
  · exact .store _ _

theorem storeRegisters_memoryStep (machine : Machine) (last : Register) :
    MemoryStep machine.memory (machine.storeRegisters last).machine.memory := by
  unfold storeRegisters
  split
  · exact .keep
  · exact .store _ _

theorem loadRegisters_memoryStep (machine : Machine) (last : Register) :
    MemoryStep machine.memory (machine.loadRegisters last).machine.memory := by
  unfold loadRegisters
  split
  · exact .keep
  · exact .read _ _

/-- Only the words of four opcodes come to the memory at all. -/
theorem perform_memoryStep (machine : Machine) (word : Int) :
    MemoryStep machine.memory (machine.perform word).machine.memory := by
  by_cases draws : (Opcode.family 0xd).Covers word
  · rw [machine.perform_spelled (.draw draws)]
    exact machine.draw_memoryStep _ _ _
  by_cases digits : (Opcode.closing 0xf 0x33).Covers word
  · rw [machine.perform_spelled (.storeDigits digits)]
    exact machine.storeDigits_memoryStep _
  by_cases stores : (Opcode.closing 0xf 0x55).Covers word
  · rw [machine.perform_spelled (.storeRegisters stores)]
    exact machine.storeRegisters_memoryStep _
  by_cases loads : (Opcode.closing 0xf 0x65).Covers word
  · rw [machine.perform_spelled (.loadRegisters loads)]
    exact machine.loadRegisters_memoryStep _
  · have unnamed : ¬ Opcode.Listed Opcode.accessing word := by
      simp only [Opcode.Listed, Opcode.accessing, List.mem_cons, List.not_mem_nil, or_false,
        exists_eq_or_imp, exists_eq_left, not_or]
      exact ⟨draws, digits, stores, loads⟩
    have unstored (place : Int) : ¬ machine.Stores word place := by
      rintro ⟨-, ⟨other, -⟩ | ⟨other, -⟩⟩
      · exact digits other
      · exact stores other
    have confined := machine.perform_confined word
    have same : (machine.perform word).machine.memory = machine.memory :=
      Memory.eq_of_byteAt (fun place => confined.bytes place (unstored place)) confined.zones
        (confined.accesses unnamed)
    rw [same]
    exact .keep

theorem fetch_memoryStep (machine : Machine) :
    MemoryStep machine.memory machine.fetch.machine.memory := by
  unfold fetch
  split
  · exact .keep
  · exact .read machine.counter 2

/-- A cycle comes to the memory for its word, and then for what the word does. -/
theorem cycle_memorySteps (machine : Machine) :
    ∃ fetched, MemoryStep machine.memory fetched ∧
      MemoryStep fetched machine.cycle.machine.memory := by
  cases machine.cycle_course with
  | idle _ _ _ _ _ _ after =>
      rw [after]
      exact ⟨_, .keep, .keep⟩
  | faulted _ _ _ _ after =>
      rw [after]
      exact ⟨_, machine.begun.fetch_memoryStep, machine.begun.loaded.perform_memoryStep _⟩
  | executed _ _ _ _ _ _ after =>
      rw [after, checkErrors_machine]
      exact ⟨_, machine.begun.fetch_memoryStep, machine.begun.loaded.perform_memoryStep _⟩

/-- What reading, storing, a reset and a new program keep of a memory, every request keeps. -/
theorem serve_memory {holds : Memory → Prop}
    (stepped : ∀ before after, MemoryStep before after → holds before → holds after)
    (reset : ∀ memory, holds memory → holds memory.reset)
    (taken : ∀ memory program, holds memory → holds (memory.withProgram program))
    (machine : Machine) (request : Request) (held : holds machine.memory) :
    holds (machine.serve request).machine.memory := by
  cases request with
  | load program =>
      change holds (machine.load program).machine.memory
      by_cases renewing : (Request.load program).renews = true
      · rw [machine.load_taken renewing]
        exact taken _ _ (reset _ held)
      · rw [machine.load_refused (Bool.not_eq_true _ ▸ renewing)]
        exact held
  | reset => exact reset _ held
  | press code => exact held
  | release code => exact held
  | cycle =>
      obtain ⟨fetched, fetches, performs⟩ := machine.cycle_memorySteps
      exact stepped _ _ performs (stepped _ _ fetches held)

theorem MemoryStep.zones {before after : Memory} (step : MemoryStep before after) :
    after.zones = before.zones := by
  cases step with
  | keep => rfl
  | read place count => exact (before.readEach_sameContents place count).zones
  | store place values => exact storeEach_zones before place values

/-- Programs and hosts that only make requests leave the zones as they are. -/
theorem serve_zones (machine : Machine) (request : Request) :
    (machine.serve request).machine.memory.zones = machine.memory.zones :=
  @serve_memory (fun memory => memory.zones = machine.memory.zones)
    (fun _ _ step same => step.zones.trans same)
    (fun memory same => memory.reset_zones.trans same)
    (fun memory program same => (memory.withProgram_zones program).trans same) machine request rfl

theorem storeEach_guarded {memory : Memory} (guarded : memory.Guarded) (place : Int)
    (values : List Int) : (storeEach memory place values).memory.Guarded := by
  induction values generalizing memory place with
  | nil => exact guarded
  | cons value rest ih => exact ih (guarded.write place value) (place + 1)

theorem MemoryStep.guarded {before after : Memory} (step : MemoryStep before after)
    (guarded : before.Guarded) : after.Guarded := by
  cases step with
  | keep => exact guarded
  | read place count => exact guarded.congr (before.readEach_sameContents place count)
  | store place values => exact storeEach_guarded guarded place values

theorem serve_guarded {machine : Machine} (guarded : machine.memory.Guarded) (request : Request) :
    (machine.serve request).machine.memory.Guarded :=
  serve_memory (fun _ _ step held => step.guarded held) (fun _ held => held.carryOut .reset)
    (fun _ program held => held.withProgram program) machine request guarded

theorem new_guarded (display : Display) (random : RandomBytes) :
    (Machine.new display random).memory.Guarded := by
  unfold Machine.new fresh
  exact Memory.initial_guarded

theorem Reachable.guarded {machine : Machine} (reached : Reachable machine) : machine.memory.Guarded := by
  induction reached with
  | new display random _ _ => exact new_guarded display random
  | serve request _ ih => exact serve_guarded ih request

/-- A machine that is only asked for requests keeps the zone of a new memory, and no other. -/
theorem Reachable.zones {machine : Machine} (reached : Reachable machine) :
    machine.memory.zones = Memory.initial.zones := by
  induction reached with
  | new display random _ _ => rfl
  | serve request _ ih => exact (serve_zones _ request).trans ih

/-- What a host does with a machine: it makes a request, or it goes to the memory past the machine. -/
inductive Deed where
  | ask (request : Request)
  | memory (deed : Memory.Deed)
  deriving DecidableEq, Repr

/-- The machine after a deed, also after a cycle that ends with a fault. -/
def carryOut (machine : Machine) : Deed → Machine
  | .ask request => (machine.serve request).machine
  | .memory deed => { machine with memory := machine.memory.carryOut deed }

def carryOutAll (machine : Machine) : List Deed → Machine
  | [] => machine
  | deed :: rest => (machine.carryOut deed).carryOutAll rest

theorem carryOut_guarded {machine : Machine} (guarded : machine.memory.Guarded) (deed : Deed) :
    (machine.carryOut deed).memory.Guarded := by
  cases deed with
  | ask request => exact serve_guarded guarded request
  | memory deed => exact guarded.carryOut deed

theorem carryOutAll_guarded {machine : Machine} (guarded : machine.memory.Guarded)
    (deeds : List Deed) : (machine.carryOutAll deeds).memory.Guarded := by
  induction deeds generalizing machine with
  | nil => exact guarded
  | cons deed rest ih => exact ih (carryOut_guarded guarded deed)

/-- Whatever programs run and whatever a host does with a machine and with its memory, short of clearing
the memory and of setting its bytes directly: the bytes from 0x50 up to 0x9f are the glyphs, and the
check of the memory finds them intact. -/
theorem glyphs_stay (display : Display) (random : RandomBytes) (deeds : List Deed) :
    let memory := ((Machine.new display random).carryOutAll deeds).memory
    Slice.ofList memory.bytes.toList (some 0x50) (some 0xa0) = Memory.glyphs ∧
      memory.isIntact = true := by
  intro memory
  have guarded : memory.Guarded := carryOutAll_guarded (new_guarded display random) deeds
  exact ⟨guarded.held.slice, memory.isIntact_iff.mpr guarded.held⟩

end Machine

end ChipEight
