/-!
The fixed numbers of the library. Each is chosen once here; the rest of the library and its
callers use the names.
-/

namespace Cadence.Limits

/-- Bytes of a segment's name, the leading slash included. -/
def nameBytes : Nat := 255

def segmentBytes : Nat := 1073741824

/-- Bytes of a cache line; what two parties write is kept on different lines. -/
def cacheLine : Nat := 64

/-- What the base address of a mapped segment is a multiple of. -/
def segmentAlignment : Nat := cacheLine

/-- Bytes of the largest block that memory can give. -/
def allocationBytes : Nat := 9223372036854775807

def cpus : Nat := 64

/-- The highest CPU an affinity mask can name. -/
def cpuIndex : Nat := 1023

def realtimeMin : Int := 1

def realtimeMax : Int := 99

/-- Bytes of an object's name inside a fault. -/
def faultNameBytes : Nat := 62

end Cadence.Limits
