import NodeGet.Traffic.Total

/-! The summary of a dynamic report (`ng-monitoring/src/data_structure.rs`:
`DynamicMonitoringSummaryData::from_with_filter`).

Disks and interfaces are selected by name, or left out by what they are; eight of the
fields add up a figure over those that count. The sums are formed in `u64` and only then
cut to the range of `i64`. A field is therefore the exact sum, or `i64::MAX` where that is
less, exactly when the sum fits `u64` (`aggregates_exact_iff`); one that does not panics or
wraps, as the build profile says (`two_large_disks`).

Of a report there are the fields that the summary reads. -/
namespace NodeGet.Monitoring.Summary
open NodeGet.Core NodeGet.TrafficTotal

/-! ### The report -/

structure DynamicRamData where
  totalMemory : UInt64
  availableMemory : UInt64
  usedMemory : UInt64
  totalSwap : UInt64
  usedSwap : UInt64

structure DynamicLoadData where
  one : Float
  five : Float
  fifteen : Float

structure DynamicSystemData where
  bootTime : UInt64
  uptime : UInt64
  processCount : UInt64

structure DynamicPerDiskData where
  fileSystem : String
  mountPoint : String
  totalSpace : UInt64
  availableSpace : UInt64
  readSpeed : UInt64
  writeSpeed : UInt64

structure DynamicPerNetworkInterfaceData where
  interfaceName : String
  totalReceived : UInt64
  totalTransmitted : UInt64
  receiveSpeed : UInt64
  transmitSpeed : UInt64
  isOutlet : Option Bool

structure DynamicNetworkData where
  interfaces : List DynamicPerNetworkInterfaceData
  udpConnections : UInt64
  tcpConnections : UInt64

structure DynamicMonitoringData where
  uuid : Uuid
  time : UInt64
  totalCpuUsage : Float
  ram : DynamicRamData
  load : DynamicLoadData
  system : DynamicSystemData
  disk : List DynamicPerDiskData
  network : DynamicNetworkData
  /-- The `utilization_gpu` of each GPU. -/
  gpu : List UInt8

structure DynamicMonitoringSummaryData where
  uuid : Uuid
  time : UInt64
  cpuUsage : Option Int16
  gpuUsage : Option Int16
  usedSwap : Option Int64
  totalSwap : Option Int64
  usedMemory : Option Int64
  totalMemory : Option Int64
  availableMemory : Option Int64
  loadOne : Option Int16
  loadFive : Option Int16
  loadFifteen : Option Int16
  uptime : Option Int32
  bootTime : Option Int64
  processCount : Option Int32
  totalSpace : Option Int64
  availableSpace : Option Int64
  readSpeed : Option Int64
  writeSpeed : Option Int64
  tcpConnections : Option Int32
  udpConnections : Option Int32
  totalReceived : Option Int64
  totalTransmitted : Option Int64
  transmitSpeed : Option Int64
  receiveSpeed : Option Int64

/-! ### What counts -/

def virtualInterfacePrefixes : List String :=
  ["br", "cni", "docker", "podman", "flannel", "lo", "veth", "virbr", "vmbr", "tap", "fwbr", "fwpr", "fwln", "tun",
    "vnet", "kube", "tailscale", "Meta", "wg", "ppp", "zt"]

def excludedMountPrefixes : List String :=
  ["/tmp", "/var/tmp", "/dev", "/run", "/var/lib/containerd", "/var/lib/containers", "/var/lib/docker",
    "/var/lib/kubelet/plugins", "/var/lib/kubelet/plugins_registry", "/var/lib/kubelet/pods",
    "/var/lib/rancher/k3s/agent/containerd", "/var/lib/rancher/k3s/agent/kubelet/plugins",
    "/var/lib/rancher/k3s/agent/kubelet/plugins_registry", "/var/lib/rancher/k3s/agent/kubelet/pods", "/proc", "/sys",
    "/sys/fs/cgroup", "/etc/resolv.conf", "/etc/host", "/etc/hostname", "/etc/hosts", "/nix/store"]

def excludedFileSystems : List String :=
  ["autofs", "bpf", "cgroup", "cgroup2", "debugfs", "devtmpfs", "fusectl", "nsfs", "overlay", "proc", "pstore",
    "securityfs", "squashfs", "sysfs", "tmpfs", "tracefs"]

def isVirtualInterface (name : String) : Bool :=
  virtualInterfacePrefixes.any fun stem => stem.toList.isPrefixOf name.toList

/-- The mount point, or a path below it. -/
def mountPointMatchesPrefix (mountPoint stem : String) : Bool :=
  mountPoint == stem || (stem.toList ++ ['/']).isPrefixOf mountPoint.toList

def isExcludedMount (mountPoint : String) : Bool :=
  excludedMountPrefixes.any fun stem => mountPointMatchesPrefix mountPoint stem

def isExcludedFileSystem (fileSystem : String) : Bool :=
  excludedFileSystems.any fun excluded => fileSystem.toList.map Char.toLower == excluded.toList.map Char.toLower

def isExcludedSummaryDisk (disk : DynamicPerDiskData) : Bool :=
  isExcludedMount disk.mountPoint || isExcludedFileSystem disk.fileSystem

/-- A list of names that is given and not empty. -/
def selection (select : Option (List String)) : Option (List String) := select.filter fun names => !names.isEmpty

def countedDisks (data : DynamicMonitoringData) (selectDisk : Option (List String)) : List DynamicPerDiskData :=
  match selection selectDisk with
  | some names => data.disk.filter fun d => names.contains d.mountPoint
  | none => data.disk.filter fun d => !isExcludedSummaryDisk d

def countedInterfaces (data : DynamicMonitoringData) (selectNetworkInterface : Option (List String)) :
    List DynamicPerNetworkInterfaceData :=
  match selection selectNetworkInterface with
  | some names => data.network.interfaces.filter fun i => names.contains i.interfaceName
  | none => data.network.interfaces.filter fun i => i.isOutlet.getD (!isVirtualInterface i.interfaceName)

/-! ### Conversions -/

def u64ToI64Saturating (value : UInt64) : Int64 := Int64.ofInt (min (value.toNat : Int) i64Max)

def u64ToI32Saturating (value : UInt64) : Int32 := Int32.ofInt (min (value.toNat : Int) 2147483647)

def clamp (value low high : Float) : Float := if value < low then low else if value > high then high else value

def scaleCpuPercentToI16 (percent : Float) : Option Int16 :=
  if percent.isFinite then some (clamp (percent * 10.0) 0.0 1000.0).toInt16 else none

def scaleLoadToI16 (load : Float) : Option Int16 :=
  if load.isFinite then some (clamp (load * 10.0) (-32768.0) 32767.0).toInt16 else none

/-- `none` is a panic while adding. -/
def fromWithFilter (overflowChecks : Bool) (data : DynamicMonitoringData) (selectDisk : Option (List String))
    (selectNetworkInterface : Option (List String)) : Option DynamicMonitoringSummaryData := do
  let disks := countedDisks data selectDisk
  let totalSpace ← sumU64 overflowChecks (disks.map (·.totalSpace))
  let availableSpace ← sumU64 overflowChecks (disks.map (·.availableSpace))
  let readSpeed ← sumU64 overflowChecks (disks.map (·.readSpeed))
  let writeSpeed ← sumU64 overflowChecks (disks.map (·.writeSpeed))
  let ifaces := countedInterfaces data selectNetworkInterface
  let totalReceived ← sumU64 overflowChecks (ifaces.map (·.totalReceived))
  let totalTransmitted ← sumU64 overflowChecks (ifaces.map (·.totalTransmitted))
  let receiveSpeedNet ← sumU64 overflowChecks (ifaces.map (·.receiveSpeed))
  let transmitSpeed ← sumU64 overflowChecks (ifaces.map (·.transmitSpeed))
  return {
    uuid := data.uuid
    time := data.time
    cpuUsage := scaleCpuPercentToI16 data.totalCpuUsage
    gpuUsage := data.gpu.head?.map fun g => Int16.ofNat g.toNat
    usedSwap := some (u64ToI64Saturating data.ram.usedSwap)
    totalSwap := some (u64ToI64Saturating data.ram.totalSwap)
    usedMemory := some (u64ToI64Saturating data.ram.usedMemory)
    totalMemory := some (u64ToI64Saturating data.ram.totalMemory)
    availableMemory := some (u64ToI64Saturating data.ram.availableMemory)
    loadOne := scaleLoadToI16 data.load.one
    loadFive := scaleLoadToI16 data.load.five
    loadFifteen := scaleLoadToI16 data.load.fifteen
    uptime := some (u64ToI32Saturating data.system.uptime)
    bootTime := some (u64ToI64Saturating data.system.bootTime)
    processCount := some (u64ToI32Saturating data.system.processCount)
    totalSpace := some (u64ToI64Saturating totalSpace)
    availableSpace := some (u64ToI64Saturating availableSpace)
    readSpeed := some (u64ToI64Saturating readSpeed)
    writeSpeed := some (u64ToI64Saturating writeSpeed)
    tcpConnections := some (u64ToI32Saturating data.network.tcpConnections)
    udpConnections := some (u64ToI32Saturating data.network.udpConnections)
    totalReceived := some (u64ToI64Saturating totalReceived)
    totalTransmitted := some (u64ToI64Saturating totalTransmitted)
    transmitSpeed := some (u64ToI64Saturating transmitSpeed)
    receiveSpeed := some (u64ToI64Saturating receiveSpeedNet) }

/-! ### The sums -/

/-- The sum as a number of any size. -/
def exactSum : List UInt64 → Nat
  | [] => 0
  | value :: rest => value.toNat + exactSum rest

/-- A checked sum panics exactly when the exact sum is too large, a wrapping one is then another
number. -/
theorem foldlM_addU64_iff (overflowChecks : Bool) (values : List UInt64) (start : UInt64) :
    (∃ sum, values.foldlM (addU64 overflowChecks) start = some sum ∧ sum.toNat = start.toNat + exactSum values) ↔
      start.toNat + exactSum values ≤ u64Max := by
  constructor
  · intro h
    obtain ⟨sum, -, hsum⟩ := h
    have := sum.toNat_lt
    simp only [u64Max]
    omega
  · intro h
    induction values generalizing start with
    | nil => exact ⟨start, rfl, rfl⟩
    | cons value rest ih =>
      simp only [exactSum, List.foldlM_cons] at h ⊢
      obtain ⟨hadd, htoNat⟩ := addU64_of_fits overflowChecks (a := start) (b := value) (by omega)
      obtain ⟨sum, hsum, hexact⟩ := ih (start + value) (by omega)
      rw [hadd]
      exact ⟨sum, hsum, by omega⟩

theorem sumU64_exact_iff (overflowChecks : Bool) (values : List UInt64) :
    (∃ sum, sumU64 overflowChecks values = some sum ∧ sum.toNat = exactSum values) ↔ exactSum values ≤ u64Max := by
  have h := foldlM_addU64_iff overflowChecks values 0
  simpa [sumU64] using h

theorem toInt_u64ToI64Saturating (value : UInt64) :
    (u64ToI64Saturating value).toInt = min (value.toNat : Int) i64Max := by
  apply Int64.toInt_ofInt_of_le <;> simp only [i64Max] <;> omega

/-! ### The fields that add up -/

inductive Aggregate where
  | totalSpace | availableSpace | readSpeed | writeSpeed
  | totalReceived | totalTransmitted | receiveSpeed | transmitSpeed
deriving DecidableEq

namespace Aggregate
variable (data : DynamicMonitoringData) (selectDisk selectNetworkInterface : Option (List String))

/-- The figures of the disks or interfaces that count. -/
def counted : Aggregate → List UInt64
  | totalSpace => (countedDisks data selectDisk).map (·.totalSpace)
  | availableSpace => (countedDisks data selectDisk).map (·.availableSpace)
  | readSpeed => (countedDisks data selectDisk).map (·.readSpeed)
  | writeSpeed => (countedDisks data selectDisk).map (·.writeSpeed)
  | totalReceived => (countedInterfaces data selectNetworkInterface).map (·.totalReceived)
  | totalTransmitted => (countedInterfaces data selectNetworkInterface).map (·.totalTransmitted)
  | receiveSpeed => (countedInterfaces data selectNetworkInterface).map (·.receiveSpeed)
  | transmitSpeed => (countedInterfaces data selectNetworkInterface).map (·.transmitSpeed)

def field (summary : DynamicMonitoringSummaryData) : Aggregate → Option Int64
  | totalSpace => summary.totalSpace
  | availableSpace => summary.availableSpace
  | readSpeed => summary.readSpeed
  | writeSpeed => summary.writeSpeed
  | totalReceived => summary.totalReceived
  | totalTransmitted => summary.totalTransmitted
  | receiveSpeed => summary.receiveSpeed
  | transmitSpeed => summary.transmitSpeed

end Aggregate

section
variable {overflowChecks : Bool} {data : DynamicMonitoringData}
  {selectDisk selectNetworkInterface : Option (List String)}

/-- Each field is its sum, cut to `i64`. -/
theorem fromWithFilter_fields {sums : Aggregate → UInt64}
    (h : ∀ a : Aggregate, sumU64 overflowChecks (a.counted data selectDisk selectNetworkInterface) = some (sums a)) :
    ∃ summary, fromWithFilter overflowChecks data selectDisk selectNetworkInterface = some summary ∧
      ∀ a : Aggregate, a.field summary = some (u64ToI64Saturating (sums a)) := by
  have hdisks := And.intro (h .totalSpace) (And.intro (h .availableSpace) (And.intro (h .readSpeed) (h .writeSpeed)))
  have hifaces := And.intro (h .totalReceived)
    (And.intro (h .totalTransmitted) (And.intro (h .receiveSpeed) (h .transmitSpeed)))
  simp only [Aggregate.counted] at hdisks hifaces
  simp only [fromWithFilter, hdisks, hifaces]
  exact ⟨_, rfl, fun a => by cases a <;> rfl⟩

end

/-- No sum panics or wraps, and each field is the exact sum or `i64::MAX`, whichever is less. -/
def Exact (overflowChecks : Bool) (data : DynamicMonitoringData) (selectDisk : Option (List String))
    (selectNetworkInterface : Option (List String)) : Prop :=
  ∃ summary, fromWithFilter overflowChecks data selectDisk selectNetworkInterface = some summary ∧
    ∀ a : Aggregate, let values := a.counted data selectDisk selectNetworkInterface
      (∃ sum, sumU64 overflowChecks values = some sum ∧ sum.toNat = exactSum values) ∧
        ∃ value, a.field summary = some value ∧ value.toInt = min (exactSum values : Int) i64Max

/-- **The summary is exact, in every build profile, exactly when each of its eight sums fits
`u64`.** -/
theorem aggregates_exact_iff (overflowChecks : Bool) (data : DynamicMonitoringData) (selectDisk : Option (List String))
    (selectNetworkInterface : Option (List String)) :
    Exact overflowChecks data selectDisk selectNetworkInterface ↔
      ∀ a : Aggregate, exactSum (a.counted data selectDisk selectNetworkInterface) ≤ u64Max := by
  constructor
  · intro h a
    obtain ⟨summary, -, hfields⟩ := h
    exact (sumU64_exact_iff overflowChecks _).mp (hfields a).1
  · intro h
    choose sums hsums hexact using fun a => (sumU64_exact_iff overflowChecks _).mpr (h a)
    obtain ⟨summary, hsummary, hfields⟩ := fromWithFilter_fields hsums
    refine ⟨summary, hsummary, fun a => ⟨⟨sums a, hsums a, hexact a⟩, _, hfields a, ?_⟩⟩
    rw [toInt_u64ToI64Saturating, hexact a]

section Example

/-- A disk of half the range of `u64`. -/
private def largeDisk (mountPoint : String) : DynamicPerDiskData := ⟨"ext4", mountPoint, 9223372036854775808, 0, 0, 0⟩

/-- Two of them in one machine. -/
private def largeDisks : DynamicMonitoringData where
  uuid := 0
  time := 0
  totalCpuUsage := 0.0
  ram := ⟨0, 0, 0, 0, 0⟩
  load := ⟨0.0, 0.0, 0.0⟩
  system := ⟨0, 0, 0⟩
  disk := [largeDisk "/", largeDisk "/data"]
  network := ⟨[], 0, 0⟩
  gpu := []

/-- Their space is `2 ^ 64`: checked, the sum panics; unchecked, the summary says 0. -/
theorem two_large_disks :
    exactSum (Aggregate.totalSpace.counted largeDisks none none) = 18446744073709551616 ∧
      (fromWithFilter true largeDisks none none).isNone = true ∧
      (fromWithFilter false largeDisks none none).map (·.totalSpace) = some (some 0) := by
  decide +kernel

end Example

end NodeGet.Monitoring.Summary
