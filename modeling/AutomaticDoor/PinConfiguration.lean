import AutomaticDoor.Foundations.CallReplays
import AutomaticDoor.Foundations.PackedFields
import AutomaticDoor.PortInputs

/-!
Sequences of pin configurations.  The registers are read as fields, one for
each pin or line, and a configuration call overwrites the fields of its own
pin.
-/

namespace AutomaticDoor.PinConfiguration

open AutomaticDoor.BoardRegisters
open AutomaticDoor.Foundations.CallReplays
open AutomaticDoor.Foundations.PackedFields
open AutomaticDoor.PortInputs
open AutomaticDoor.PortSystem

/-- The arguments `mode` and `pupd` of `port_system_gpio_config`. -/
abbrev TwoBitValue := { value : BitVec 8 // value.toNat < 4 }

/-- The argument `alternate` of `port_system_gpio_config_alternate`. -/
abbrev FourBitValue := { value : BitVec 8 // value.toNat < 16 }

inductive ConfigCall
  | config (port : GpioPort) (pin : Pin) (mode pupd : TwoBitValue)
  | alternate (port : GpioPort) (pin : Pin) (number : FourBitValue)
  | exti (port : GpioPort) (pin : Pin) (mode : Word)

def applyCall (b : Board) : ConfigCall → Board
  | .config port pin mode pupd => portSystemGpioConfig port pin mode pupd b
  | .alternate port pin number => portSystemGpioConfigAlternate port pin number b
  | .exti port pin mode => portSystemGpioConfigExti port pin mode b

def applyCalls (b : Board) (calls : List ConfigCall) : Board :=
  calls.foldl applyCall b

/-- What the configuration registers hold for a pin of a port, or for the
external line of a pin number. -/
inductive Field
  | moder (port : GpioPort) (pin : Pin)
  | pupdr (port : GpioPort) (pin : Pin)
  | afr (port : GpioPort) (pin : Pin)
  | exticr (pin : Pin)
  | rtsr (pin : Pin)
  | ftsr (pin : Pin)
  | emr (pin : Pin)
  | imr (pin : Pin)
deriving DecidableEq

theorem afrIndex_lt (pin : Pin) : (pin : Nat) / 8 < 2 := by omega

theorem exticrIndex_lt (pin : Pin) : (pin : Nat) / 4 < 4 := by omega

/-- The element of `AFR` that holds the field of a pin. -/
def afrIndex (pin : Pin) : Fin 2 := ⟨pin / 8, afrIndex_lt pin⟩

/-- The element of `EXTICR` that holds the field of a pin number. -/
def exticrIndex (pin : Pin) : Fin 4 := ⟨pin / 4, exticrIndex_lt pin⟩

theorem eq_iff_afrIndex {pin pin' : Pin} :
    pin' = pin ↔ afrIndex pin' = afrIndex pin ∧ (pin' % 8 : Nat) = pin % 8 := by
  rw [Fin.ext_iff, afrIndex, afrIndex, Fin.mk.injEq]
  omega

theorem eq_iff_exticrIndex {pin pin' : Pin} :
    pin' = pin ↔
      exticrIndex pin' = exticrIndex pin ∧ (pin' % 4 : Nat) = pin % 4 := by
  rw [Fin.ext_iff, exticrIndex, exticrIndex, Fin.mk.injEq]
  omega

/-- The value of a field, cut out of the register that holds it. -/
def Field.read (b : Board) : Field → Nat
  | .moder port pin => fieldAt 2 pin (b.gpio port).moder
  | .pupdr port pin => fieldAt 2 pin (b.gpio port).pupdr
  | .afr port pin => fieldAt 4 (pin % 8) ((b.gpio port).afr (afrIndex pin))
  | .exticr pin => fieldAt 4 (pin % 4) (b.exticr (exticrIndex pin))
  | .rtsr pin => fieldAt 1 pin b.exti.rtsr
  | .ftsr pin => fieldAt 1 pin b.exti.ftsr
  | .emr pin => fieldAt 1 pin b.exti.emr
  | .imr pin => fieldAt 1 pin b.exti.imr

def triggerBit (trigger mode : Word) : Nat :=
  if mode &&& trigger ≠ 0 then 1 else 0

/-- The value that a call gives to a field of its own pin. -/
def ConfigCall.write : ConfigCall → Field → Option Nat
  | .config port pin mode _, .moder port' pin' =>
      if port' = port ∧ pin' = pin then some mode.val.toNat else none
  | .config port pin _ pupd, .pupdr port' pin' =>
      if port' = port ∧ pin' = pin then some pupd.val.toNat else none
  | .alternate port pin number, .afr port' pin' =>
      if port' = port ∧ pin' = pin then some number.val.toNat else none
  | .exti port pin _, .exticr pin' =>
      if pin' = pin then some (exticrCode port) else none
  | .exti _ pin mode, .rtsr pin' =>
      if pin' = pin then some (triggerBit triggerRisingEdge mode) else none
  | .exti _ pin mode, .ftsr pin' =>
      if pin' = pin then some (triggerBit triggerFallingEdge mode) else none
  | .exti _ pin mode, .emr pin' =>
      if pin' = pin then some (triggerBit triggerEnableEventReq mode) else none
  | .exti _ pin mode, .imr pin' =>
      if pin' = pin then some (triggerBit triggerEnableInterrReq mode) else none
  | _, _ => none

theorem isFieldMask_one : IsFieldMask 1 (1#32) := by
  unfold IsFieldMask
  decide

theorem isFieldMask_two : IsFieldMask 2 gpioTwoBitField := by
  unfold IsFieldMask
  decide

theorem isFieldMask_four : IsFieldMask 4 (0x0F : Word) := by
  unfold IsFieldMask
  decide

theorem toNat_setWidth_byte (value : BitVec 8) :
    (value.setWidth 32).toNat = value.toNat :=
  BitVec.toNat_setWidth_of_le (by omega)

theorem setWidth_byte_lt {value : BitVec 8} {bound : Nat}
    (h : value.toNat < bound) : (value.setWidth 32).toNat < bound := by
  rw [toNat_setWidth_byte]
  exact h

theorem portSelector_lt (port : GpioPort) : (portSelector port).toNat < 2 ^ 4 := by
  cases port <;> decide

/-- The word whose only bit tells whether the mode has the trigger. -/
def triggerValue (trigger mode : Word) : Word :=
  if mode &&& trigger ≠ 0 then 1 else 0

theorem toNat_triggerValue (trigger mode : Word) :
    (triggerValue trigger mode).toNat = triggerBit trigger mode := by
  rw [triggerValue, triggerBit]
  split <;> rfl

theorem triggerValue_lt (trigger mode : Word) :
    (triggerValue trigger mode).toNat < 2 ^ 1 := by
  rw [triggerValue]
  split <;> decide

theorem configTrigger_eq (trigger mode : Word) (pin : Pin) (reg : Word) :
    configTrigger trigger mode pin reg =
      clearThenOr 1#32 (triggerValue trigger mode) (pin * 1) reg := by
  rw [configTrigger, clearThenOr, triggerValue, Nat.mul_one]
  split
  · rfl
  · rw [show (0 : Word) = 0#32 from rfl, BitVec.zero_shiftLeft, BitVec.or_zero]
    rfl

theorem getD_write {p q : Prop} [Decidable p] [Decidable q] (h : p ↔ q)
    (value old : Nat) :
    (if p then some value else none).getD old = if q then value else old := by
  simp only [h]
  split <;> rfl

theorem onGpio_kept {α : Type} (get : GpioRegs → α) {f : GpioRegs → GpioRegs}
    (h : ∀ r, get (f r) = get r) (port port' : GpioPort) (b : Board) :
    get ((b.onGpio port f).gpio port') = get (b.gpio port') :=
  updateEntry_kept get h b.gpio

section Steps

variable (b : Board) (port : GpioPort) (pin : Pin)

theorem read_config (mode pupd : TwoBitValue) (f : Field) :
    f.read (portSystemGpioConfig port pin mode pupd b) =
      ((ConfigCall.config port pin mode pupd).write f).getD (f.read b) := by
  cases f with
  | moder port' pin' =>
      rw [ConfigCall.write, getD_write (and_congr_right' Fin.val_inj.symm),
        ← toNat_setWidth_byte]
      exact fieldAt_update GpioRegs.moder rfl isFieldMask_two
        (setWidth_byte_lt mode.property) (by omega)
  | pupdr port' pin' =>
      rw [ConfigCall.write, getD_write (and_congr_right' Fin.val_inj.symm),
        ← toNat_setWidth_byte]
      exact fieldAt_update GpioRegs.pupdr rfl isFieldMask_two
        (setWidth_byte_lt pupd.property) (by omega)
  | afr port' pin' =>
      simp only [Field.read, portSystemGpioConfig]
      rw [onGpio_kept GpioRegs.afr (by intro r; rfl)]
      rfl
  | exticr _ | rtsr _ | ftsr _ | emr _ | imr _ => rfl

theorem read_alternate (number : FourBitValue) (f : Field) :
    f.read (portSystemGpioConfigAlternate port pin number b) =
      ((ConfigCall.alternate port pin number).write f).getD (f.read b) := by
  cases f with
  | moder port' pin' =>
      simp only [Field.read, portSystemGpioConfigAlternate]
      rw [onGpio_kept GpioRegs.moder (by intro r; rfl)]
      rfl
  | pupdr port' pin' =>
      simp only [Field.read, portSystemGpioConfigAlternate]
      rw [onGpio_kept GpioRegs.pupdr (by intro r; rfl)]
      rfl
  | afr port' pin' =>
      by_cases hindex : afrIndex pin' = afrIndex pin
      · have hpin : pin' = pin ↔ (pin' % 8 : Nat) = pin % 8 := by
          rw [eq_iff_afrIndex]
          exact and_iff_right hindex
        rw [ConfigCall.write, getD_write (and_congr_right' hpin),
          ← toNat_setWidth_byte]
        refine fieldAt_update (fun r : GpioRegs => r.afr (afrIndex pin')) ?_
          isFieldMask_four (setWidth_byte_lt number.property) (by omega)
        simp only [hindex]
        exact Function.update_self ..
      · have hpin : ¬ (port' = port ∧ pin' = pin) := by
          rintro ⟨-, rfl⟩
          exact hindex rfl
        rw [ConfigCall.write, if_neg hpin]
        simp only [Field.read, portSystemGpioConfigAlternate]
        rw [onGpio_kept fun r : GpioRegs => r.afr (afrIndex pin')]
        · rfl
        · intro r
          exact Function.update_of_ne hindex _ _
  | exticr _ | rtsr _ | ftsr _ | emr _ | imr _ => rfl

theorem read_trigger (trigger mode : Word) (pin' : Pin) (reg : Word) :
    fieldAt 1 pin' (configTrigger trigger mode pin reg) =
      (if pin' = pin then some (triggerBit trigger mode) else none).getD
        (fieldAt 1 pin' reg) := by
  rw [getD_write Fin.val_inj.symm, configTrigger_eq, ← toNat_triggerValue]
  exact fieldAt_clearThenOr isFieldMask_one (triggerValue_lt _ _) (by omega)

theorem read_exti (mode : Word) (f : Field) :
    f.read (portSystemGpioConfigExti port pin mode b) =
      ((ConfigCall.exti port pin mode).write f).getD (f.read b) := by
  cases f with
  | moder _ _ | pupdr _ _ | afr _ _ => rfl
  | exticr pin' =>
      rw [ConfigCall.write, getD_write eq_iff_exticrIndex, ← toNat_portSelector]
      exact fieldAt_update id rfl isFieldMask_four
        (portSelector_lt port) (by omega)
  | rtsr pin' | ftsr pin' | emr pin' | imr pin' =>
      exact read_trigger pin _ mode pin' _

end Steps

theorem read_applyCall (b : Board) (c : ConfigCall) (f : Field) :
    f.read (applyCall b c) = (c.write f).getD (f.read b) := by
  cases c with
  | config port pin mode pupd => exact read_config b port pin mode pupd f
  | alternate port pin number => exact read_alternate b port pin number f
  | exti port pin mode => exact read_exti b port pin mode f

theorem read_applyCalls (b : Board) (calls : List ConfigCall) (f : Field) :
    f.read (applyCalls b calls) =
      ((calls.filterMap fun c => c.write f).getLast?).getD (f.read b) :=
  view_foldl_lastWriter (fun b => f.read b) (fun b c => read_applyCall b c f) b calls

/-- What a call rewrites: the fields of a pin of a port, or those of the
external line of a pin number, which all ports share. -/
inductive Target
  | gpio (port : GpioPort) (pin : Pin)
  | alternate (port : GpioPort) (pin : Pin)
  | line (pin : Pin)
deriving DecidableEq

def ConfigCall.target : ConfigCall → Target
  | .config port pin _ _ => .gpio port pin
  | .alternate port pin _ => .alternate port pin
  | .exti _ pin _ => .line pin

def enableGpioClock (port : GpioPort) (b : Board) : Board :=
  { b with rcc :=
      { b.rcc with ahb1Gpio := updateEntry port (fun _ => true) b.rcc.ahb1Gpio } }

def configGpio (pin : Pin) (mode pupd : TwoBitValue) (r : GpioRegs) : GpioRegs :=
  { r with
    moder := clearThenOr gpioTwoBitField (mode.val.setWidth 32) (pin * 2) r.moder
    pupdr := clearThenOr gpioTwoBitField (pupd.val.setWidth 32) (pin * 2) r.pupdr }

def configAlternate (pin : Pin) (number : FourBitValue) (r : GpioRegs) :
    GpioRegs :=
  { r with
    afr := updateEntry (afrIndex pin)
      (clearThenOr 0x0F (number.val.setWidth 32) (pin % 8 * 4)) r.afr }

def configExticr (port : GpioPort) (pin : Pin) :
    (Fin 4 → Word) → Fin 4 → Word :=
  updateEntry (exticrIndex pin)
    (clearThenOr 0x0F (portSelector port) (pin % 4 * 4))

section Bodies

variable (b : Board) (port : GpioPort) (pin : Pin)

theorem portSystemGpioConfig_eq (mode pupd : TwoBitValue) :
    portSystemGpioConfig port pin mode pupd b =
      (enableGpioClock port b).onGpio port (configGpio pin mode pupd) := rfl

theorem portSystemGpioConfigAlternate_eq (number : FourBitValue) :
    portSystemGpioConfigAlternate port pin number b =
      b.onGpio port (configAlternate pin number) := rfl

theorem onGpio_enableGpioClock (port' : GpioPort) (f : GpioRegs → GpioRegs) :
    (enableGpioClock port b).onGpio port' f =
      enableGpioClock port (b.onGpio port' f) := rfl

theorem enableGpioClock_comm (port' : GpioPort) :
    enableGpioClock port (enableGpioClock port' b) =
      enableGpioClock port' (enableGpioClock port b) := by
  have hclock := updateEntry_comm (a := port) (b := port')
    (f := fun _ => true) (g := fun _ => true) (fun _ _ => rfl) b.rcc.ahb1Gpio
  simp only [enableGpioClock, hclock]

theorem enableGpioClock_self :
    enableGpioClock port (enableGpioClock port b) = enableGpioClock port b := by
  have hclock := updateEntry_updateEntry_self (a := port)
    (f := fun _ => true) (fun _ => rfl) b.rcc.ahb1Gpio
  simp only [enableGpioClock, hclock]

theorem onGpio_comm {port port' : GpioPort} {f g : GpioRegs → GpioRegs}
    (h : port = port' → ∀ r, f (g r) = g (f r)) :
    (b.onGpio port' g).onGpio port f = (b.onGpio port f).onGpio port' g :=
  congrArg (fun gpio => { b with gpio := gpio }) (updateEntry_comm h b.gpio)

theorem onGpio_onGpio_self {f : GpioRegs → GpioRegs} (h : ∀ r, f (f r) = f r) :
    (b.onGpio port f).onGpio port f = b.onGpio port f :=
  congrArg (fun gpio => { b with gpio := gpio })
    (updateEntry_updateEntry_self h b.gpio)

end Bodies

section Laws

variable {pin pin' : Pin}

theorem configGpio_comm (h : pin ≠ pin') (mode pupd mode' pupd' : TwoBitValue)
    (r : GpioRegs) :
    configGpio pin mode pupd (configGpio pin' mode' pupd' r) =
      configGpio pin' mode' pupd' (configGpio pin mode pupd r) := by
  have hslot : (pin' : Nat) ≠ pin := Fin.val_ne_of_ne h.symm
  simp only [configGpio]
  rw [clearThenOr_comm isFieldMask_two (setWidth_byte_lt mode.property)
      (setWidth_byte_lt mode'.property) hslot,
    clearThenOr_comm isFieldMask_two (setWidth_byte_lt pupd.property)
      (setWidth_byte_lt pupd'.property) hslot]

theorem configAlternate_comm (h : pin ≠ pin') (number number' : FourBitValue)
    (r : GpioRegs) :
    configAlternate pin number (configAlternate pin' number' r) =
      configAlternate pin' number' (configAlternate pin number r) := by
  simp only [configAlternate]
  rw [updateEntry_comm]
  intro hindex word
  have hslot : (pin' % 8 : Nat) ≠ pin % 8 := fun heq =>
    h (eq_iff_afrIndex.mpr ⟨hindex.symm, heq⟩).symm
  exact clearThenOr_comm isFieldMask_four (setWidth_byte_lt number.property)
    (setWidth_byte_lt number'.property) hslot

theorem configExticr_comm (h : pin ≠ pin') (port port' : GpioPort)
    (table : Fin 4 → Word) :
    configExticr port pin (configExticr port' pin' table) =
      configExticr port' pin' (configExticr port pin table) := by
  apply updateEntry_comm
  intro hindex word
  have hslot : (pin' % 4 : Nat) ≠ pin % 4 := fun heq =>
    h (eq_iff_exticrIndex.mpr ⟨hindex.symm, heq⟩).symm
  exact clearThenOr_comm isFieldMask_four (portSelector_lt port)
    (portSelector_lt port') hslot

theorem configTrigger_comm (h : pin ≠ pin') (trigger mode mode' reg : Word) :
    configTrigger trigger mode pin (configTrigger trigger mode' pin' reg) =
      configTrigger trigger mode' pin' (configTrigger trigger mode pin reg) := by
  have hslot : (pin' : Nat) ≠ pin := Fin.val_ne_of_ne h.symm
  simp only [configTrigger_eq]
  exact clearThenOr_comm isFieldMask_one (triggerValue_lt _ _)
    (triggerValue_lt _ _) hslot

theorem configGpio_configGpio_self (mode pupd : TwoBitValue) (r : GpioRegs) :
    configGpio pin mode pupd (configGpio pin mode pupd r) =
      configGpio pin mode pupd r := by
  simp only [configGpio]
  rw [clearThenOr_clearThenOr_self isFieldMask_two
      (setWidth_byte_lt mode.property),
    clearThenOr_clearThenOr_self isFieldMask_two
      (setWidth_byte_lt pupd.property)]

theorem configAlternate_configAlternate_self (number : FourBitValue)
    (r : GpioRegs) :
    configAlternate pin number (configAlternate pin number r) =
      configAlternate pin number r := by
  simp only [configAlternate]
  rw [updateEntry_updateEntry_self]
  intro word
  exact clearThenOr_clearThenOr_self isFieldMask_four
    (setWidth_byte_lt number.property)

theorem configExticr_configExticr_self (port : GpioPort)
    (table : Fin 4 → Word) :
    configExticr port pin (configExticr port pin table) =
      configExticr port pin table := by
  apply updateEntry_updateEntry_self
  intro word
  exact clearThenOr_clearThenOr_self isFieldMask_four (portSelector_lt port)

theorem configTrigger_configTrigger_self (trigger mode reg : Word) :
    configTrigger trigger mode pin (configTrigger trigger mode pin reg) =
      configTrigger trigger mode pin reg := by
  simp only [configTrigger_eq]
  exact clearThenOr_clearThenOr_self isFieldMask_one (triggerValue_lt _ _)

end Laws

theorem portSystemGpioConfigExti_eq (b : Board) (port : GpioPort) (pin : Pin)
    (mode : Word) :
    portSystemGpioConfigExti port pin mode b =
      { b with
        rcc := { b.rcc with apb2Syscfg := true }
        exticr := configExticr port pin b.exticr
        exti :=
          { b.exti with
            rtsr := configTrigger triggerRisingEdge mode pin b.exti.rtsr
            ftsr := configTrigger triggerFallingEdge mode pin b.exti.ftsr
            emr := configTrigger triggerEnableEventReq mode pin b.exti.emr
            imr := configTrigger triggerEnableInterrReq mode pin b.exti.imr } } :=
  rfl

section Commuting

variable {port port' : GpioPort} {pin pin' : Pin} (b : Board)

theorem portSystemGpioConfig_comm (h : port = port' → pin ≠ pin')
    (mode pupd mode' pupd' : TwoBitValue) :
    portSystemGpioConfig port pin mode pupd
        (portSystemGpioConfig port' pin' mode' pupd' b) =
      portSystemGpioConfig port' pin' mode' pupd'
        (portSystemGpioConfig port pin mode pupd b) := by
  simp only [portSystemGpioConfig_eq, onGpio_enableGpioClock]
  rw [enableGpioClock_comm, onGpio_comm]
  intro hport r
  exact configGpio_comm (h hport) mode pupd mode' pupd' r

theorem portSystemGpioConfigAlternate_comm (h : port = port' → pin ≠ pin')
    (number number' : FourBitValue) :
    portSystemGpioConfigAlternate port pin number
        (portSystemGpioConfigAlternate port' pin' number' b) =
      portSystemGpioConfigAlternate port' pin' number'
        (portSystemGpioConfigAlternate port pin number b) := by
  simp only [portSystemGpioConfigAlternate_eq]
  apply onGpio_comm
  intro hport r
  exact configAlternate_comm (h hport) number number' r

theorem portSystemGpioConfig_alternate_comm (mode pupd : TwoBitValue)
    (number : FourBitValue) :
    portSystemGpioConfig port pin mode pupd
        (portSystemGpioConfigAlternate port' pin' number b) =
      portSystemGpioConfigAlternate port' pin' number
        (portSystemGpioConfig port pin mode pupd b) := by
  simp only [portSystemGpioConfig_eq, portSystemGpioConfigAlternate_eq,
    onGpio_enableGpioClock]
  rw [onGpio_comm]
  intro _ _
  rfl

theorem portSystemGpioConfigExti_comm (h : pin ≠ pin') (mode mode' : Word) :
    portSystemGpioConfigExti port pin mode
        (portSystemGpioConfigExti port' pin' mode' b) =
      portSystemGpioConfigExti port' pin' mode'
        (portSystemGpioConfigExti port pin mode b) := by
  simp only [portSystemGpioConfigExti_eq, configExticr_comm h,
    configTrigger_comm h]

end Commuting

theorem applyCall_comm {c d : ConfigCall} (h : c.target ≠ d.target) (b : Board) :
    applyCall (applyCall b d) c = applyCall (applyCall b c) d := by
  cases c with
  | config port pin mode pupd =>
      cases d with
      | config port' pin' mode' pupd' =>
          apply portSystemGpioConfig_comm
          rintro rfl rfl
          exact h rfl
      | alternate => exact portSystemGpioConfig_alternate_comm ..
      | exti => rfl
  | alternate port pin number =>
      cases d with
      | config => exact (portSystemGpioConfig_alternate_comm ..).symm
      | alternate port' pin' number' =>
          apply portSystemGpioConfigAlternate_comm
          rintro rfl rfl
          exact h rfl
      | exti => rfl
  | exti port pin mode =>
      cases d with
      | config | alternate => rfl
      | exti port' pin' mode' =>
          apply portSystemGpioConfigExti_comm
          rintro rfl
          exact h rfl

theorem applyCall_applyCall_self (b : Board) (c : ConfigCall) :
    applyCall (applyCall b c) c = applyCall b c := by
  cases c with
  | config port pin mode pupd =>
      simp only [applyCall, portSystemGpioConfig_eq, onGpio_enableGpioClock]
      rw [onGpio_onGpio_self _ _ (configGpio_configGpio_self mode pupd),
        enableGpioClock_self]
  | alternate port pin number =>
      simp only [applyCall, portSystemGpioConfigAlternate_eq]
      exact onGpio_onGpio_self b port (configAlternate_configAlternate_self number)
  | exti port pin mode =>
      simp only [applyCall, portSystemGpioConfigExti_eq,
        configExticr_configExticr_self, configTrigger_configTrigger_self]

/-- The board without the fields of the pins and lines and without the clocks
of the registers configured.  Above its sixteen fields or bits, a register of
the external lines is kept. -/
def surroundings (b : Board) : Board :=
  { b with
    gpio := fun port =>
      { b.gpio port with moder := 0, pupdr := 0, afr := fun _ => 0 }
    exticr := fun index => b.exticr index >>> 16
    exti :=
      { b.exti with
        rtsr := b.exti.rtsr >>> 16
        ftsr := b.exti.ftsr >>> 16
        emr := b.exti.emr >>> 16
        imr := b.exti.imr >>> 16 }
    rcc := { b.rcc with ahb1Gpio := fun _ => false, apb2Syscfg := false } }

theorem surroundings_onGpio {f : GpioRegs → GpioRegs}
    (h : ∀ r, (f r).idr = r.idr ∧ (f r).odr = r.odr) (port : GpioPort)
    (b : Board) : surroundings (b.onGpio port f) = surroundings b := by
  have hgpio : ∀ r, (⟨0, 0, (f r).idr, (f r).odr, fun _ => 0⟩ : GpioRegs) =
      ⟨0, 0, r.idr, r.odr, fun _ => 0⟩ := by
    intro r
    rw [(h r).1, (h r).2]
  have hports := fun port' => updateEntry_kept (b := port') (a := port)
    (fun r : GpioRegs => (⟨0, 0, r.idr, r.odr, fun _ => 0⟩ : GpioRegs)) hgpio b.gpio
  exact congrArg (fun gpio => { surroundings b with gpio := gpio }) (funext hports)

theorem ushiftRight_configTrigger (trigger mode : Word) (pin : Pin) (reg : Word) :
    configTrigger trigger mode pin reg >>> 16 = reg >>> 16 := by
  rw [configTrigger_eq]
  exact ushiftRight_clearThenOr isFieldMask_one (triggerValue_lt _ _) (by omega)

theorem ushiftRight_configExticr (port : GpioPort) (pin : Pin)
    (table : Fin 4 → Word) (index : Fin 4) :
    configExticr port pin table index >>> 16 = table index >>> 16 := by
  apply updateEntry_kept fun word : Word => word >>> 16
  intro word
  exact ushiftRight_clearThenOr isFieldMask_four (portSelector_lt port) (by omega)

theorem surroundings_applyCall (b : Board) (c : ConfigCall) :
    surroundings (applyCall b c) = surroundings b := by
  cases c with
  | config port pin mode pupd =>
      rw [applyCall, portSystemGpioConfig_eq, surroundings_onGpio]
      · rfl
      · intro r
        exact ⟨rfl, rfl⟩
  | alternate port pin number =>
      rw [applyCall, portSystemGpioConfigAlternate_eq, surroundings_onGpio]
      intro r
      exact ⟨rfl, rfl⟩
  | exti port pin mode =>
      rw [applyCall, portSystemGpioConfigExti_eq]
      simp only [surroundings, ushiftRight_configTrigger, ushiftRight_configExticr]

/-- After any sequence of calls each field holds what the last call on it gave
it, or its initial value, and nothing else has changed.  Calls on different
targets commute, and a repeated call changes nothing. -/
theorem pin_configuration_last_writer_wins (b : Board) (calls : List ConfigCall) :
    (∀ f : Field, f.read (applyCalls b calls) =
      ((calls.filterMap fun c => c.write f).getLast?).getD (f.read b)) ∧
    surroundings (applyCalls b calls) = surroundings b ∧
    (∀ c d : ConfigCall, c.target ≠ d.target →
      applyCalls b (calls ++ [c, d]) = applyCalls b (calls ++ [d, c])) ∧
    (∀ c : ConfigCall,
      applyCalls b (calls ++ [c, c]) = applyCalls b (calls ++ [c])) := by
  refine ⟨read_applyCalls b calls, ?_, ?_, ?_⟩
  · exact view_foldl_of_unchanged surroundings surroundings_applyCall b calls
  · intro c d h
    simp only [applyCalls, List.foldl_append, List.foldl_cons, List.foldl_nil]
    exact applyCall_comm h.symm _
  · intro c
    simp only [applyCalls, List.foldl_append, List.foldl_cons, List.foldl_nil]
    exact applyCall_applyCall_self _ c

/-- The lines of the button, PC13, and of the presence sensor, PA10, in either
order. -/
theorem pin_configuration_button_and_sensor :
    let button := ConfigCall.exti buttonEmergency.pPort buttonEmergency.pin
      (triggerBothEdge ||| triggerEnableInterrReq)
    let sensor := ConfigCall.exti pirSensorAutomaticDoor.pPort
      pirSensorAutomaticDoor.pin (triggerBothEdge ||| triggerEnableInterrReq)
    applyCalls Board.reset [button, sensor] =
        applyCalls Board.reset [sensor, button] ∧
      (Field.exticr buttonEmergency.pin).read
        (applyCalls Board.reset [button, sensor]) = 2 := by
  intro button sensor
  constructor
  · exact (pin_configuration_last_writer_wins Board.reset []).2.2.1 button sensor
      (by decide)
  · exact (pin_configuration_last_writer_wins Board.reset [button, sensor]).1
      (.exticr buttonEmergency.pin)

end AutomaticDoor.PinConfiguration
