import Breadboard.Device.Basic

/-!
# Networks

A network is a list of devices in the order of their declaration, each with a name of its own. The
connections are in the pins of the devices: an input reads the level of the output that drives it,
and an undriven input reads low.
-/

set_option autoImplicit false
set_option relaxedAutoImplicit false

namespace Breadboard

/-- How many passes a network is given to come to rest. -/
structure Settings where
  minIterations : Nat := 20
  iterationsPerDevice : Nat := 2
deriving DecidableEq

namespace Settings

/-- The greatest number of passes that can be asked for. -/
def maxIterations : Nat := UInt64.size - 1

/-- The passes that a network with a given number of devices gets: in proportion to the devices,
not less than the given minimum, and at least one. -/
def limit (settings : Settings) (deviceCount : Nat) : Nat :=
  let proportional := min (settings.iterationsPerDevice * deviceCount) maxIterations
  max (max settings.minIterations proportional) 1

theorem limit_pos (settings : Settings) (deviceCount : Nat) : 0 < settings.limit deviceCount :=
  Nat.le_max_right ..

end Settings

/-- A circuit: its devices in the order of their declaration. -/
structure Network where
  ports : Ports
  devices : List Device := []
  settings : Settings := {}
deriving DecidableEq

namespace Network

/-- The device with a given name. -/
def device? (n : Network) (id : NameId) : Option Device :=
  n.devices.find? (·.id == id)

/-- Whether there is a device with a given name. -/
def contains (n : Network) (id : NameId) : Bool :=
  (n.device? id).isSome

/-- The network with every device replaced by what a function makes of it. -/
def mapDevices (f : Device → Device) (n : Network) : Network :=
  { n with devices := n.devices.map f }

/-- The network with one device replaced by what a function makes of it. -/
def update (n : Network) (id : NameId) (f : Device → Device) : Network :=
  n.mapDevices fun d ↦ if d.id = id then f d else d

/-- The passes that the network gets to come to rest. -/
def iterationLimit (n : Network) : Nat :=
  n.settings.limit n.devices.length

/-- The level of an output. -/
def output? (n : Network) (t : Terminal) : Option Level :=
  (n.device? t.device).bind fun d ↦ d.output? n.ports t.port

/-- The level that a pin with a given driver reads. -/
def drivenLevel (n : Network) (driver : Option Terminal) : Level :=
  (driver.bind n.output?).getD Level.low

/-- The level of an input of a device. -/
def inputLevel (n : Network) (d : Device) (port : NameId) : Level :=
  n.drivenLevel ((d.pin? port).bind Pin.driver)

/-- The level of an input, where there is one. -/
def input? (n : Network) (id port : NameId) : Option Level :=
  (n.device? id).bind fun d ↦ (d.pin? port).map fun pin ↦ n.drivenLevel pin.driver

/-- The levels that the pins of a device read, in ascending order of port. -/
def pinLevels (n : Network) (d : Device) : List Level :=
  d.pins.map fun pin ↦ n.drivenLevel pin.driver

/-- Every output, device by device. -/
def terminals (n : Network) : List Terminal :=
  n.devices.flatMap fun d ↦ (d.outputs n.ports).map fun output ↦ ⟨d.id, output.1⟩

/-- The names of the devices of a kind, or of all devices. -/
def devicesOf (n : Network) (kind : Option Kind) : List NameId :=
  (n.devices.filter fun d ↦ kind.all (d.kind == ·)).map Device.id

/-- The devices that take inputs and have none. -/
def devicesWithoutInputs (n : Network) : List NameId :=
  (n.devices.filter fun d ↦ !d.kind.isSource && d.pins.isEmpty).map Device.id

/-- The inputs that nothing drives, as device and port. -/
def unconnected (n : Network) : List (NameId × NameId) :=
  n.devices.flatMap fun d ↦ (d.pins.filter (·.driver.isNone)).map fun pin ↦ (d.id, pin.port)

/-- Whether every input is driven. -/
def isConnected (n : Network) : Bool :=
  n.unconnected.isEmpty

@[simp]
theorem devices_mapDevices (f : Device → Device) (n : Network) :
    (n.mapDevices f).devices = n.devices.map f := rfl

@[simp]
theorem ports_mapDevices (f : Device → Device) (n : Network) :
    (n.mapDevices f).ports = n.ports := rfl

@[simp]
theorem ports_update (n : Network) (id : NameId) (f : Device → Device) :
    (n.update id f).ports = n.ports := rfl

@[simp]
theorem devices_update (n : Network) (id : NameId) (f : Device → Device) :
    (n.update id f).devices = n.devices.map fun d ↦ if d.id = id then f d else d := rfl

/-- A function that keeps the names of devices keeps who is who. -/
theorem device?_mapDevices (n : Network) {f : Device → Device} (hf : ∀ d, (f d).id = d.id)
    (id : NameId) : (n.mapDevices f).device? id = (n.device? id).map f := by
  simp only [device?, devices_mapDevices, List.find?_map]
  congr 2
  funext d
  simp [Function.comp, hf d]

end Network

end Breadboard
