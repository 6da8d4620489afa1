import AutomaticDoor.PortSystem

/-!
The functions of `port_button.c` and `port_pir_sensor.c`.  The flags inside
`button_emergency` and `pir_sensor_automatic_door` are fields of the board.
-/

namespace AutomaticDoor.PortInputs

open AutomaticDoor.BoardRegisters
open AutomaticDoor.PortSystem

structure PortButtonHw where
  pPort : GpioPort
  pin : Pin

structure PortPirHw where
  pPort : GpioPort
  pin : Pin

def buttonEmergency : PortButtonHw := ⟨.GPIOC, ⟨13, by omega⟩⟩

def pirSensorAutomaticDoor : PortPirHw := ⟨.GPIOA, ⟨10, by omega⟩⟩

/-- With `GPIO_MODE_IN`, `GPIO_PUPDR_NOPULL` and interrupts on both edges. -/
def portButtonInit (button : PortButtonHw) (b : Board) : Board :=
  let b := portSystemGpioConfig button.pPort button.pin 0x00 0x00 b
  let b := portSystemGpioConfigExti button.pPort button.pin
    (triggerBothEdge ||| triggerEnableInterrReq) b
  portSystemGpioExtiEnable button.pin 3 0 b

def portButtonIsPressed (b : Board) : Bool := b.flagPressed

def portButtonReadGpio (button : PortButtonHw) (b : Board) : Bool :=
  decide ((b.gpio button.pPort).idr &&& bitPosToMask button.pin ≠ 0)

def portPirSensorGetStatus (b : Board) : Bool := b.sensorStatus

def portPirSensorSetStatus (status : Bool) (b : Board) : Board :=
  { b with sensorStatus := status }

def portPirSensorReadGpio (pir : PortPirHw) (b : Board) : Bool :=
  decide ((b.gpio pir.pPort).idr &&& bitPosToMask pir.pin ≠ 0)

def portPirSensorInit (pir : PortPirHw) (b : Board) : Board :=
  let b := portSystemGpioConfig pir.pPort pir.pin 0x00 0x00 b
  let b := portSystemGpioConfigExti pir.pPort pir.pin
    (triggerBothEdge ||| triggerEnableInterrReq) b
  portSystemGpioExtiEnable pir.pin 1 0 b

theorem portButtonReadGpio_eq (button : PortButtonHw) (b : Board) :
    portButtonReadGpio button b =
      (b.gpio button.pPort).idr.getLsbD button.pin :=
  decide_and_bitPosToMask _ _

theorem portPirSensorReadGpio_eq (pir : PortPirHw) (b : Board) :
    portPirSensorReadGpio pir b = (b.gpio pir.pPort).idr.getLsbD pir.pin :=
  decide_and_bitPosToMask _ _

end AutomaticDoor.PortInputs
