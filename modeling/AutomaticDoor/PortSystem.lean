import AutomaticDoor.BoardRegisters
import AutomaticDoor.Foundations.PackedFields

/-!
The functions of `port_system.c`: the system clock, the tick counter, and the
configuration of GPIO pins and of their external interrupts.
-/

namespace AutomaticDoor.PortSystem

open AutomaticDoor.BoardRegisters
open AutomaticDoor.Foundations.PackedFields

/-- `HSI_VALUE`, in Hz. -/
def hsiValue : Word := 16000000

/-- `AHBPrescTable`: the shift for each value of `RCC_CFGR_HPRE`. -/
def ahbPrescTable (hpre : Fin 16) : Nat :=
  [0, 0, 0, 0, 0, 0, 0, 0, 1, 2, 3, 4, 6, 7, 8, 9].get hpre

/-- The update of `SystemCoreClock` in `system_clock_config`. -/
def systemClockConfig (b : Board) : Board :=
  { b with systemCoreClock := hsiValue >>> ahbPrescTable b.rcc.cfgrHpre }

def portSystemGetMillis (b : Board) : Word := b.msTicks

def portSystemSetMillis (ms : Word) (b : Board) : Board :=
  { b with msTicks := ms }

/-- `GPIO_MODER_MODER0` and `GPIO_PUPDR_PUPD0`: the field of pin 0. -/
def gpioTwoBitField : Word := 0x3

def portSystemGpioConfig (port : GpioPort) (pin : Pin) (mode pupd : BitVec 8)
    (b : Board) : Board :=
  let clocked : Board :=
    { b with rcc :=
        { b.rcc with ahb1Gpio := Function.update b.rcc.ahb1Gpio port true } }
  clocked.onGpio port fun r =>
    { r with
      moder := clearThenOr gpioTwoBitField (mode.setWidth 32) (pin * 2) r.moder
      pupdr := clearThenOr gpioTwoBitField (pupd.setWidth 32) (pin * 2) r.pupdr }

def portSystemGpioConfigAlternate (port : GpioPort) (pin : Pin)
    (alternate : BitVec 8) (b : Board) : Board :=
  let index : Fin 2 := ⟨pin / 8, by omega⟩
  b.onGpio port fun r =>
    { r with
      afr := Function.update r.afr index
        (clearThenOr 0x0F (alternate.setWidth 32) (pin % 8 * 4) (r.afr index)) }

def triggerRisingEdge : Word := 0x01
def triggerFallingEdge : Word := 0x02
def triggerBothEdge : Word := triggerRisingEdge ||| triggerFallingEdge
def triggerEnableEventReq : Word := 0x04
def triggerEnableInterrReq : Word := 0x08

/-- The value of `SYSCFG->EXTICR` fields that selects a port. -/
def portSelector : GpioPort → Word
  | .GPIOA => 0
  | .GPIOB => 1
  | .GPIOC => 2

def configTrigger (trigger mode : Word) (pin : Pin) (reg : Word) : Word :=
  let cleared := reg &&& ~~~bitPosToMask pin
  if mode &&& trigger ≠ 0 then cleared ||| bitPosToMask pin else cleared

def portSystemGpioConfigExti (port : GpioPort) (pin : Pin) (mode : Word)
    (b : Board) : Board :=
  let index : Fin 4 := ⟨pin / 4, by omega⟩
  { b with
    rcc := { b.rcc with apb2Syscfg := true }
    exticr := Function.update b.exticr index
      (clearThenOr 0x0F (portSelector port) (pin % 4 * 4) (b.exticr index))
    exti :=
      { b.exti with
        rtsr := configTrigger triggerRisingEdge mode pin b.exti.rtsr
        ftsr := configTrigger triggerFallingEdge mode pin b.exti.ftsr
        emr := configTrigger triggerEnableEventReq mode pin b.exti.emr
        imr := configTrigger triggerEnableInterrReq mode pin b.exti.imr } }

/-- `GET_PIN_IRQN`: the interrupt that serves a GPIO pin. -/
def getPinIrqn (pin : Pin) : Irqn :=
  if pin.val ≥ 10 then .EXTI15_10
  else if h : pin.val ≥ 5 then .EXTI9_5
  else .EXTI ⟨pin, by omega⟩

theorem getPinIrqn_eq (pin : Pin) : getPinIrqn pin = extiIrqn pin := by
  rw [getPinIrqn, extiIrqn]
  by_cases hten : pin.val ≥ 10
  · rw [if_pos hten, dif_neg (by omega), if_neg (by omega)]
  · rw [if_neg hten]
    by_cases hfive : pin.val ≥ 5
    · rw [dif_pos hfive, dif_neg (by omega), if_pos (by omega)]
    · rw [dif_neg hfive, dif_pos (by omega)]

theorem toNat_portSelector (port : GpioPort) :
    (portSelector port).toNat = exticrCode port := by
  cases port <;> rfl

/-- `NVIC_SetPriority` of an encoded pair. -/
def nvicSetPriority (irq : Irqn) (priority subpriority : BitVec 8) :
    Board → Board :=
  Board.onNvic irq fun line =>
    { line with priority := priority, subpriority := subpriority }

def nvicEnableIrq (irq : Irqn) : Board → Board :=
  Board.onNvic irq fun line => { line with enabled := true }

def nvicDisableIrq (irq : Irqn) : Board → Board :=
  Board.onNvic irq fun line => { line with enabled := false }

def portSystemGpioExtiEnable (pin : Pin) (priority subpriority : BitVec 8)
    (b : Board) : Board :=
  nvicEnableIrq (getPinIrqn pin)
    (nvicSetPriority (getPinIrqn pin) priority subpriority b)

def portSystemGpioExtiDisable (pin : Pin) (b : Board) : Board :=
  nvicDisableIrq (getPinIrqn pin) b

end AutomaticDoor.PortSystem
