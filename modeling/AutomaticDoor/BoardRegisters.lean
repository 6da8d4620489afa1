import Mathlib.Logic.Function.Basic
import AutomaticDoor.Foundations.RegisterWords

/-!
The memory of the board: the peripheral registers of the microcontroller that
the port layer reads and writes, and the global variables of the port layer.
Bits of `TIMx`, `NVIC` and `RCC` registers that the code addresses one by one
through CMSIS masks are fields of their own; the registers it shifts masks
into are 32-bit words.
-/

namespace AutomaticDoor.BoardRegisters

open AutomaticDoor.Foundations.RegisterWords

abbrev Word := BitVec 32

abbrev Pin := Fin 16

inductive GpioPort
  | GPIOA
  | GPIOB
  | GPIOC
deriving DecidableEq

inductive Timer
  | TIM2
  | TIM3
  | TIM4
deriving DecidableEq

inductive Irqn
  | EXTI (line : Fin 5)
  | EXTI9_5
  | EXTI15_10
  | TIM (timer : Timer)
deriving DecidableEq

/-- The interrupt that the chip raises for an external line, by the number of
its pin. -/
def extiIrqn (line : Pin) : Irqn :=
  if h : line.val < 5 then .EXTI ⟨line, h⟩
  else if line.val < 10 then .EXTI9_5
  else .EXTI15_10

/-- The value of a `SYSCFG->EXTICR` field by which the chip connects an external
line to a port. -/
def exticrCode : GpioPort → Nat
  | .GPIOA => 0
  | .GPIOB => 1
  | .GPIOC => 2

/-- `BIT_POS_TO_MASK`: the index of a bit as a mask. -/
def bitPosToMask (x : Nat) : Word := 1#32 <<< x

theorem bitPosToMask_eq_twoPow (x : Nat) :
    bitPosToMask x = BitVec.twoPow 32 x := rfl

theorem decide_and_bitPosToMask (x : Word) (pin : Pin) :
    decide (x &&& bitPosToMask pin ≠ 0#32) = x.getLsbD pin := by
  rw [Bool.eq_iff_iff, decide_eq_true_iff]
  exact and_twoPow_ne_zero_iff (by omega) x

structure GpioRegs where
  moder : Word
  pupdr : Word
  idr : Word
  odr : Word
  afr : Fin 2 → Word

structure ExtiRegs where
  pr : Word
  rtsr : Word
  ftsr : Word
  emr : Word
  imr : Word

/-- `CR1.CEN`, `CR1.ARPE`, `CR1.URS`, `DIER.UIE` and `SR.UIF`, and the counter
with its prescaler and auto-reload values. -/
structure TimRegs where
  cen : Bool
  arpe : Bool
  urs : Bool
  uie : Bool
  uif : Bool
  cnt : Word
  psc : Word
  arr : Word

/-- Writing `UG` to `EGR` restarts the count, and sets the update flag unless
`URS` restricts the flag to overflows. -/
def TimRegs.updateGeneration (r : TimRegs) : TimRegs :=
  { r with cnt := 0, uif := r.uif || !r.urs }

def TimRegs.overflow (r : TimRegs) : TimRegs :=
  { r with cnt := 0, uif := true }

/-- What the NVIC holds for one interrupt.  The priority is the pair handed to
`NVIC_EncodePriority`. -/
structure NvicLine where
  enabled : Bool
  priority : BitVec 8
  subpriority : BitVec 8

structure RccRegs where
  ahb1Gpio : GpioPort → Bool
  apb1Tim : Timer → Bool
  apb2Syscfg : Bool
  cfgrHpre : Fin 16

/-- Everything the port layer and the interrupt handlers share.  The last
fields are the variables of the C files: `msTicks`, `SystemCoreClock`, and the
flags inside `button_emergency`, `pir_sensor_automatic_door` and
`motor_automatic_door`. -/
structure Board where
  gpio : GpioPort → GpioRegs
  exti : ExtiRegs
  exticr : Fin 4 → Word
  tim : Timer → TimRegs
  nvic : Irqn → NvicLine
  rcc : RccRegs
  msTicks : Word
  systemCoreClock : Word
  flagPressed : Bool
  flagReleased : Bool
  sensorStatus : Bool
  timeout : Bool

def GpioRegs.reset : GpioRegs := ⟨0, 0, 0, 0, fun _ => 0⟩

def ExtiRegs.reset : ExtiRegs := ⟨0, 0, 0, 0, 0⟩

def TimRegs.reset : TimRegs :=
  { cen := false, arpe := false, urs := false, uie := false, uif := false
    cnt := 0, psc := 0, arr := 0xFFFF }

namespace Board

/-- The board after a reset, with the variables as the C files initialize
them.  `HSI_VALUE` is 16 MHz. -/
def reset : Board where
  gpio := fun _ => GpioRegs.reset
  exti := ExtiRegs.reset
  exticr := fun _ => 0
  tim := fun _ => TimRegs.reset
  nvic := fun _ => ⟨false, 0, 0⟩
  rcc := ⟨fun _ => false, fun _ => false, false, 0⟩
  msTicks := 0
  systemCoreClock := 16000000
  flagPressed := false
  flagReleased := false
  sensorStatus := false
  timeout := false

def onGpio (p : GpioPort) (f : GpioRegs → GpioRegs) (b : Board) : Board :=
  { b with gpio := Function.update b.gpio p (f (b.gpio p)) }

def onTim (t : Timer) (f : TimRegs → TimRegs) (b : Board) : Board :=
  { b with tim := Function.update b.tim t (f (b.tim t)) }

def onNvic (irq : Irqn) (f : NvicLine → NvicLine) (b : Board) : Board :=
  { b with nvic := Function.update b.nvic irq (f (b.nvic irq)) }

section Frames

variable (p q : GpioPort) (t u : Timer) (f : GpioRegs → GpioRegs)
  (g : TimRegs → TimRegs) (b : Board)

@[simp] theorem onGpio_gpio_self : (b.onGpio p f).gpio p = f (b.gpio p) :=
  Function.update_self ..

theorem onGpio_gpio_of_ne (h : q ≠ p) : (b.onGpio p f).gpio q = b.gpio q :=
  Function.update_of_ne h ..

@[simp] theorem onGpio_msTicks : (b.onGpio p f).msTicks = b.msTicks := rfl

@[simp] theorem onTim_tim_self : (b.onTim t g).tim t = g (b.tim t) :=
  Function.update_self ..

theorem onTim_tim_of_ne (h : u ≠ t) : (b.onTim t g).tim u = b.tim u :=
  Function.update_of_ne h ..

@[simp] theorem onTim_gpio : (b.onTim t g).gpio = b.gpio := rfl
@[simp] theorem onTim_timeout : (b.onTim t g).timeout = b.timeout := rfl
@[simp] theorem onTim_msTicks : (b.onTim t g).msTicks = b.msTicks := rfl
@[simp] theorem onTim_systemCoreClock :
    (b.onTim t g).systemCoreClock = b.systemCoreClock := rfl

end Frames

end Board

end AutomaticDoor.BoardRegisters
