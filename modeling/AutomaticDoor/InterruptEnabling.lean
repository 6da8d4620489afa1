import AutomaticDoor.PinConfiguration
import AutomaticDoor.PortInputs

/-!
Enabling and disabling the interrupts of pins.  An interrupt of the NVIC serves
all the pins of a group, so a call on one pin acts on the others of its group.
-/

namespace AutomaticDoor.InterruptEnabling

open AutomaticDoor.BoardRegisters
open AutomaticDoor.Foundations.CallReplays
open AutomaticDoor.Foundations.PackedFields
open AutomaticDoor.PinConfiguration
open AutomaticDoor.PortInputs
open AutomaticDoor.PortSystem

inductive NvicCall
  | enable (pin : Pin) (priority subpriority : BitVec 8)
  | disable (pin : Pin)
deriving DecidableEq

namespace NvicCall

def pin : NvicCall → Pin
  | enable pin _ _ => pin
  | disable pin => pin

/-- The priority and subpriority asked for by a call that enables. -/
def setting : NvicCall → Option (BitVec 8 × BitVec 8)
  | enable _ priority subpriority => some (priority, subpriority)
  | disable _ => none

def onLine (line : NvicLine) : NvicCall → NvicLine
  | enable _ priority subpriority => ⟨true, priority, subpriority⟩
  | disable _ => { line with enabled := false }

def ServedBy (irq : Irqn) (c : NvicCall) : Prop := extiIrqn c.pin = irq

instance (irq : Irqn) : DecidablePred (ServedBy irq) :=
  fun c => inferInstanceAs (Decidable (extiIrqn c.pin = irq))

end NvicCall

open NvicCall

def applyNvicCall (b : Board) : NvicCall → Board
  | .enable pin priority subpriority =>
      portSystemGpioExtiEnable pin priority subpriority b
  | .disable pin => portSystemGpioExtiDisable pin b

def applyNvicCalls (b : Board) (calls : List NvicCall) : Board :=
  calls.foldl applyNvicCall b

def lastCallOn (pin : Pin) (calls : List NvicCall) : Option NvicCall :=
  (calls.filter fun c => c.pin = pin).getLast?

def lastCallServedBy (irq : Irqn) (calls : List NvicCall) : Option NvicCall :=
  (calls.filter fun c => c.ServedBy irq).getLast?

theorem applyNvicCall_eq (b : Board) (c : NvicCall) :
    applyNvicCall b c = b.onNvic (extiIrqn c.pin) fun line => onLine line c := by
  rw [← getPinIrqn_eq]
  cases c with
  | enable pin priority subpriority =>
      simp only [applyNvicCall, portSystemGpioExtiEnable, nvicEnableIrq,
        nvicSetPriority, Board.onNvic, Function.update_self, Function.update_idem]
      rfl
  | disable pin => rfl

theorem applyNvicCall_nvic (b : Board) (c : NvicCall) (irq : Irqn) :
    (applyNvicCall b c).nvic irq =
      (Option.guard (fun c => decide (c.ServedBy irq)) c).elim (b.nvic irq)
        (onLine (b.nvic irq)) := by
  rw [applyNvicCall_eq, Option.guard]
  by_cases h : irq = extiIrqn c.pin
  · subst irq
    rw [if_pos (by simp [ServedBy])]
    exact Function.update_self ..
  · rw [if_neg (by simp [ServedBy, Ne.symm h])]
    exact Function.update_of_ne h ..

theorem applyNvicCalls_nvic (b : Board) (calls : List NvicCall) (irq : Irqn) :
    (applyNvicCalls b calls).nvic irq =
      (calls.filter fun c => c.ServedBy irq).foldl onLine (b.nvic irq) := by
  rw [← List.filterMap_eq_filter]
  exact view_foldl (fun b => b.nvic irq)
    (fun b c => applyNvicCall_nvic b c irq) b calls

theorem exists_lastCallServedBy {pin : Pin} {calls : List NvicCall} {c : NvicCall}
    (h : lastCallOn pin calls = some c) :
    ∃ d, lastCallServedBy (extiIrqn pin) calls = some d := by
  have hmem : c ∈ calls ∧ c.pin = pin := by
    simpa using List.mem_of_getLast? h
  have hserved : c ∈ calls.filter fun c => c.ServedBy (extiIrqn pin) := by
    simp [ServedBy, hmem]
  exact ⟨_, List.getLast?_eq_some_getLast (List.ne_nil_of_mem hserved)⟩

section Encoding

-- `NVIC_EncodePriority`, under the grouping in force.
variable {Code : Type*} (encode : BitVec 8 → BitVec 8 → Code)

/-- The interrupt is as the call asks: enabled with the priority given, or
disabled. -/
def Honours (line : NvicLine) : NvicCall → Prop
  | .enable _ priority subpriority =>
      line.enabled = true ∧
        encode line.priority line.subpriority = encode priority subpriority
  | .disable _ => line.enabled = false

/-- Two calls ask for the same: both disable, or both enable with the same
priority. -/
def SameSetting (c d : NvicCall) : Prop :=
  c.setting.map (Function.uncurry encode) = d.setting.map (Function.uncurry encode)

theorem honours_onLine_iff (line : NvicLine) (c d : NvicCall) :
    Honours encode (onLine line d) c ↔ SameSetting encode c d := by
  cases c <;> cases d <;> simp [Honours, onLine, SameSetting, setting, eq_comm]

end Encoding

/-- With `GPIO_MODE_IN` and `GPIO_PUPDR_NOPULL`. -/
def inputConfig (port : GpioPort) (pin : Pin) : ConfigCall :=
  .config port pin ⟨0x00, by decide⟩ ⟨0x00, by decide⟩

def bothEdges (port : GpioPort) (pin : Pin) : ConfigCall :=
  .exti port pin (triggerBothEdge ||| triggerEnableInterrReq)

/-- The body that `port_button_init` and `port_pir_sensor_init` share. -/
def inputInit (port : GpioPort) (pin : Pin) (priority : BitVec 8) (b : Board) :
    Board :=
  applyNvicCall (applyCall (applyCall b (inputConfig port pin)) (bothEdges port pin))
    (.enable pin priority 0)

theorem portButtonInit_eq (button : PortButtonHw) :
    portButtonInit button = inputInit button.pPort button.pin 3 := rfl

theorem portPirSensorInit_eq (pir : PortPirHw) :
    portPirSensorInit pir = inputInit pir.pPort pir.pin 1 := rfl

theorem inputInit_nvic (port : GpioPort) (pin : Pin) (priority : BitVec 8) (b : Board) :
    (inputInit port pin priority b).nvic (extiIrqn pin) =
      ⟨true, priority, 0⟩ := by
  rw [inputInit, applyNvicCall_eq]
  exact Function.update_self ..

theorem applyCall_applyNvicCall (b : Board) (c : ConfigCall) (d : NvicCall) :
    applyCall (applyNvicCall b d) c = applyNvicCall (applyCall b c) d := by
  cases c <;> cases d <;> rfl

theorem applyNvicCall_comm {c d : NvicCall}
    (h : extiIrqn c.pin ≠ extiIrqn d.pin) (b : Board) :
    applyNvicCall (applyNvicCall b c) d = applyNvicCall (applyNvicCall b d) c := by
  have hnvic := updateEntry_comm (a := extiIrqn d.pin) (b := extiIrqn c.pin)
    (f := fun line => onLine line d) (g := fun line => onLine line c)
    (fun heq => absurd heq.symm h) b.nvic
  simp only [applyNvicCall_eq]
  exact congrArg (fun nvic => { b with nvic := nvic }) hnvic

theorem inputInit_comm {port port' : GpioPort} {pin pin' : Pin}
    (h : extiIrqn pin ≠ extiIrqn pin') (priority priority' : BitVec 8) (b : Board) :
    inputInit port pin priority (inputInit port' pin' priority' b) =
      inputInit port' pin' priority' (inputInit port pin priority b) := by
  have hpin : pin ≠ pin' := fun heq => h (congrArg extiIrqn heq)
  have hconfig : (inputConfig port pin).target ≠ (inputConfig port' pin').target :=
    fun heq => hpin (Target.gpio.inj heq).2
  have hline : (bothEdges port pin).target ≠ (bothEdges port' pin').target :=
    fun heq => hpin (Target.line.inj heq)
  have hother : ∀ (p q : GpioPort) (i j : Pin),
      (inputConfig p i).target ≠ (bothEdges q j).target := fun _ _ _ _ => nofun
  simp only [inputInit, applyCall_applyNvicCall]
  rw [applyNvicCall_comm (c := .enable pin' priority' 0)
      (d := .enable pin priority 0) h.symm,
    applyCall_comm (hother port port' pin pin'),
    applyCall_comm hconfig, applyCall_comm hline,
    applyCall_comm (hother port' port pin' pin).symm]

/-- The order of the two initializations matters exactly when one interrupt
serves both pins. -/
theorem portButtonInit_portPirSensorInit_comm_iff (button : PortButtonHw)
    (pir : PortPirHw) (b : Board) :
    portPirSensorInit pir (portButtonInit button b) =
        portButtonInit button (portPirSensorInit pir b) ↔
      extiIrqn button.pin ≠ extiIrqn pir.pin := by
  rw [portButtonInit_eq, portPirSensorInit_eq]
  constructor
  · intro hcomm hirq
    have hline := congrArg (fun b => b.nvic (extiIrqn pir.pin)) hcomm
    simp only [inputInit_nvic] at hline
    rw [← hirq, inputInit_nvic] at hline
    exact absurd (congrArg NvicLine.priority hline) (by decide)
  · intro h
    exact inputInit_comm h.symm 1 3 b

/-- Every pin that was called ends as its own last call asks exactly when that
call asks for the same as the last call on any pin of the same interrupt.  The
two initializations commute exactly when their pins do not share theirs. -/
theorem pin_interrupts_honoured_iff {Code : Type*} (encode : BitVec 8 → BitVec 8 → Code)
    (b : Board) (calls : List NvicCall) (button : PortButtonHw) (pir : PortPirHw) :
    ((∀ pin c, lastCallOn pin calls = some c →
        Honours encode ((applyNvicCalls b calls).nvic (extiIrqn pin)) c) ↔
      ∀ pin c d, lastCallOn pin calls = some c →
        lastCallServedBy (extiIrqn pin) calls = some d →
          SameSetting encode c d) ∧
    (portPirSensorInit pir (portButtonInit button b) =
        portButtonInit button (portPirSensorInit pir b) ↔
      extiIrqn button.pin ≠ extiIrqn pir.pin) := by
  have hline : ∀ irq d, lastCallServedBy irq calls = some d →
      ∃ line, (applyNvicCalls b calls).nvic irq = onLine line d := by
    intro irq d hd
    rw [applyNvicCalls_nvic, foldl_of_getLast? hd]
    exact ⟨_, rfl⟩
  refine ⟨?_, portButtonInit_portPirSensorInit_comm_iff button pir b⟩
  constructor
  · intro h pin c d hc hd
    obtain ⟨line, hd⟩ := hline _ _ hd
    rw [← honours_onLine_iff encode line, ← hd]
    exact h pin c hc
  · intro h pin c hc
    obtain ⟨d, hd⟩ := exists_lastCallServedBy hc
    obtain ⟨line, hlast⟩ := hline _ _ hd
    rw [hlast, honours_onLine_iff]
    exact h pin c d hc hd

/-- The button enabled with priority 3, then the sensor with priority 1: the
button's interrupt ends with priority 1. -/
theorem button_priority_overwritten :
    let button := NvicCall.enable buttonEmergency.pin 3 0
    let calls := [button, NvicCall.enable pirSensorAutomaticDoor.pin 1 0]
    lastCallOn buttonEmergency.pin calls = some button ∧
      ¬ Honours (fun priority _ => priority)
        ((applyNvicCalls Board.reset calls).nvic (extiIrqn buttonEmergency.pin))
        button ∧
      portPirSensorInit pirSensorAutomaticDoor
          (portButtonInit buttonEmergency Board.reset) ≠
        portButtonInit buttonEmergency
          (portPirSensorInit pirSensorAutomaticDoor Board.reset) := by
  refine ⟨by decide, ?_, ?_⟩
  · intro h
    exact absurd h.2 (by decide)
  · intro hcomm
    rw [portButtonInit_portPirSensorInit_comm_iff] at hcomm
    exact hcomm (by decide)

end AutomaticDoor.InterruptEnabling
