import NodeGet.Core.JsonOrder
import NodeGet.Core.JsonReading
import NodeGet.Data.Table

/-! The text that static monitoring data is hashed over (`ng-monitoring/src/data_structure.rs`:
`write_canonical_json`, `compute_data_hash`).

The canonical writer sorts the keys of an object and looks up what they hold. What it writes is
the plain text of the value with all members sorted (`writeCanonicalJson_eq`), so it is the same
for two values exactly when they are the same up to the order of members. Each text says where
it ends, so the three that are hashed can be told apart (`joined_inj`).

How numbers are written is a parameter. Floats count by the number they denote; the data that is
hashed has none. -/
namespace NodeGet.Monitoring.CanonicalJson
open NodeGet.Core NodeGet.Data

/-! ### The writer -/

section Writer
variable (number : JsonNumber → List Char)

mutual

def writeCanonicalJson : Json → List Char
  | .obj members =>
    let keys := (members.map (·.1)).mergeSort fun a b => decide (a ≤ b)
    let values := canonicalValues members
    let entry (key : String) := stringText key ++ ':' :: ((Table.lookup Prod.fst values key).map (·.2)).getD []
    Char.ofNat 123 :: commaSeparated (keys.map entry) ++ [Char.ofNat 125]
  | .arr items => '[' :: commaSeparated (canonicalItems items) ++ [']']
  | other => other.text number

def canonicalItems : List Json → List (List Char)
  | [] => []
  | item :: rest => writeCanonicalJson item :: canonicalItems rest

/-- What is written for the value that each key holds. -/
def canonicalValues : List (String × Json) → List (String × List Char)
  | [] => []
  | (key, value) :: rest => (key, writeCanonicalJson value) :: canonicalValues rest

end

theorem canonicalItems_eq (items : List Json) : canonicalItems number items = items.map (writeCanonicalJson number) := by
  induction items with
  | nil => rfl
  | cons item rest ih => rw [canonicalItems, ih, List.map_cons]

theorem canonicalValues_eq (members : List (String × Json)) :
    canonicalValues number members = members.map fun member => (member.1, writeCanonicalJson number member.2) := by
  induction members with
  | nil => rfl
  | cons member rest ih =>
    obtain ⟨key, value⟩ := member
    rw [canonicalValues, ih, List.map_cons]

theorem sortedKeys_eq (members : List (String × Json)) :
    (members.map (·.1)).mergeSort (fun a b => decide (a ≤ b)) =
      (Json.sortByKey (Json.sortedValues members)).map (·.1) := by
  have hkeys : ∀ a ∈ Json.sortedValues members, ∀ b ∈ Json.sortedValues members,
      Json.keyLe a b = decide (a.1 ≤ b.1) := fun _ _ _ _ => rfl
  have hsort := List.map_mergeSort (f := fun member : String × Json => member.1) (s := fun a b => decide (a ≤ b)) hkeys
  rw [← Json.keys_sortedValues, Json.sortByKey, hsort]

/-- The writer sorts and then writes as `serde_json` does. -/
theorem writeCanonicalJson_eq {v : Json} (h : Json.DistinctKeys v) :
    writeCanonicalJson number v = v.sorted.text number := by
  induction v with
  | null => rfl
  | bool value => rfl
  | num value => rfl
  | str value => rfl
  | arr items ih =>
    cases h with
    | arr hitems =>
      have htexts : items.map (writeCanonicalJson number) = items.map fun item => item.sorted.text number :=
        List.map_congr_left fun item hitem => ih item hitem (hitems item hitem)
      simp only [writeCanonicalJson, canonicalItems_eq, htexts, Json.sorted, Json.text, Json.itemTexts_eq,
        Json.sortedItems_eq, List.map_map]
      rfl
  | obj members ih =>
    cases h with
    | obj hkeys hvalues =>
      have hnodup : ((canonicalValues number members).map Prod.fst).Nodup := by
        rw [canonicalValues_eq, List.map_map]
        exact hkeys
      have hentry : ∀ member ∈ Json.sortByKey (Json.sortedValues members),
          Table.lookup Prod.fst (canonicalValues number members) member.1 = some (member.1, member.2.text number) := by
        intro member hmember
        have hmember := (Json.sortByKey_perm _).mem_iff.mp hmember
        rw [Json.sortedValues_eq] at hmember
        obtain ⟨⟨key, value⟩, hmem, rfl⟩ := List.mem_map.mp hmember
        refine (Table.lookup_eq_some_iff hnodup).mpr ⟨?_, rfl⟩
        rw [canonicalValues_eq]
        exact List.mem_map.mpr ⟨(key, value), hmem, by rw [ih _ hmem (hvalues _ hmem)]⟩
      simp only [writeCanonicalJson, Json.sorted, Json.text, Json.memberTexts_eq, sortedKeys_eq, List.map_map]
      congr 3
      refine List.map_congr_left fun member hmember => ?_
      simp only [Function.comp, hentry member hmember, Option.map_some, Option.getD_some]
      rfl

end Writer

/-! ### What is hashed -/

structure StaticPerCpuCoreData where
  id : UInt32
  name : String
  vendorId : String
  brand : String
deriving DecidableEq

structure StaticCPUData where
  physicalCores : UInt64
  logicalCores : UInt64
  perCore : List StaticPerCpuCoreData
deriving DecidableEq

structure StaticSystemData where
  systemName : String
  systemKernel : String
  systemKernelVersion : String
  systemOsVersion : String
  systemOsLongVersion : String
  distributionId : String
  systemHostName : String
  arch : String
  virtualization : String
deriving DecidableEq

structure StaticGpuData where
  id : UInt32
  name : String
  cudaCores : UInt64
  architecture : String
deriving DecidableEq

def u32 (n : UInt32) : Json := .num (.int n.toNat)
def u64 (n : UInt64) : Json := .num (.int n.toNat)

-- `serde_json::to_value` puts the fields into a map, which has them in the order of their names.

def StaticPerCpuCoreData.toValue (core : StaticPerCpuCoreData) : Json :=
  .obj [("brand", .str core.brand), ("id", u32 core.id), ("name", .str core.name), ("vendor_id", .str core.vendorId)]

def StaticCPUData.toValue (cpu : StaticCPUData) : Json :=
  .obj [("logical_cores", u64 cpu.logicalCores), ("per_core", .arr (cpu.perCore.map (·.toValue))),
    ("physical_cores", u64 cpu.physicalCores)]

def StaticSystemData.toValue (system : StaticSystemData) : Json :=
  .obj [("arch", .str system.arch), ("distribution_id", .str system.distributionId),
    ("system_host_name", .str system.systemHostName), ("system_kernel", .str system.systemKernel),
    ("system_kernel_version", .str system.systemKernelVersion), ("system_name", .str system.systemName),
    ("system_os_long_version", .str system.systemOsLongVersion), ("system_os_version", .str system.systemOsVersion),
    ("virtualization", .str system.virtualization)]

def StaticGpuData.toValue (gpu : StaticGpuData) : Json :=
  .obj [("architecture", .str gpu.architecture), ("cuda_cores", u64 gpu.cudaCores), ("id", u32 gpu.id),
    ("name", .str gpu.name)]

/-- The bytes of a text. -/
def utf8 (text : List Char) : ByteArray := (String.ofList text).toByteArray

theorem utf8_inj {a b : List Char} : utf8 a = utf8 b ↔ a = b := by
  rw [utf8, utf8, String.toByteArray_inj, String.ofList_inj]

/-- The three values, with a line break between them. -/
def joined (number : JsonNumber → List Char) (cpu system gpu : Json) : List Char :=
  writeCanonicalJson number cpu ++ '\n' :: (writeCanonicalJson number system ++ '\n' :: writeCanonicalJson number gpu)

def hashInput (number : JsonNumber → List Char) (cpu : StaticCPUData) (system : StaticSystemData)
    (gpu : List StaticGpuData) : ByteArray :=
  utf8 (joined number cpu.toValue system.toValue (.arr (gpu.map (·.toValue))))

def computeDataHash (number : JsonNumber → List Char) (sha256 : ByteArray → List UInt8) (cpu : StaticCPUData)
    (system : StaticSystemData) (gpu : List StaticGpuData) : List UInt8 :=
  (sha256 (hashInput number cpu system gpu)).take 16

/-! ### Values of the records -/

theorem u32_inj {m n : UInt32} (h : u32 m = u32 n) : m = n := by
  have hnat : (m.toNat : Int) = n.toNat := by simpa [u32] using h
  exact UInt32.toNat_inj.mp (Int.ofNat.inj hnat)

theorem u64_inj {m n : UInt64} (h : u64 m = u64 n) : m = n := by
  have hnat : (m.toNat : Int) = n.toNat := by simpa [u64] using h
  exact UInt64.toNat_inj.mp (Int.ofNat.inj hnat)

theorem StaticPerCpuCoreData.toValue_inj {a b : StaticPerCpuCoreData} (h : a.toValue = b.toValue) : a = b := by
  obtain ⟨id, name, vendorId, brand⟩ := a
  obtain ⟨id', name', vendorId', brand'⟩ := b
  simp only [toValue, Json.obj.injEq, List.cons.injEq, Prod.mk.injEq, Json.str.injEq, true_and, and_true] at h
  obtain ⟨rfl, hid, rfl, rfl⟩ := h
  rw [u32_inj hid]

theorem StaticCPUData.toValue_inj {a b : StaticCPUData} (h : a.toValue = b.toValue) : a = b := by
  obtain ⟨physicalCores, logicalCores, perCore⟩ := a
  obtain ⟨physicalCores', logicalCores', perCore'⟩ := b
  simp only [toValue, Json.obj.injEq, List.cons.injEq, Prod.mk.injEq, Json.arr.injEq, true_and, and_true] at h
  obtain ⟨hlogical, hcores, hphysical⟩ := h
  have hcores := List.map_injective_iff.mpr (fun _ _ => StaticPerCpuCoreData.toValue_inj) hcores
  rw [u64_inj hphysical, u64_inj hlogical, hcores]

theorem StaticSystemData.toValue_inj {a b : StaticSystemData} (h : a.toValue = b.toValue) : a = b := by
  cases a
  cases b
  simp only [toValue, Json.obj.injEq, List.cons.injEq, Prod.mk.injEq, Json.str.injEq, true_and, and_true] at h
  obtain ⟨rfl, rfl, rfl, rfl, rfl, rfl, rfl, rfl, rfl⟩ := h
  rfl

theorem StaticGpuData.toValue_inj {a b : StaticGpuData} (h : a.toValue = b.toValue) : a = b := by
  obtain ⟨id, name, cudaCores, architecture⟩ := a
  obtain ⟨id', name', cudaCores', architecture'⟩ := b
  simp only [toValue, Json.obj.injEq, List.cons.injEq, Prod.mk.injEq, Json.str.injEq, true_and, and_true] at h
  obtain ⟨rfl, hcores, hid, rfl⟩ := h
  rw [u32_inj hid, u64_inj hcores]

/-- Named values, as a record has them. -/
theorem inOrder_record {members : List (String × Json)} (hkeys : (members.map (·.1)).Pairwise (· < ·))
    (hvalues : ∀ v ∈ members.map (·.2), Json.InOrder v) : Json.InOrder (.obj members) :=
  .obj (List.pairwise_map.mp hkeys) fun member hmember => hvalues member.2 (List.mem_map_of_mem hmember)

theorem StaticPerCpuCoreData.inOrder (core : StaticPerCpuCoreData) : Json.InOrder core.toValue := by
  refine inOrder_record (by decide +kernel : ["brand", "id", "name", "vendor_id"].Pairwise (· < ·)) ?_
  simp [u32, Json.InOrder.str, Json.InOrder.num]

theorem StaticCPUData.inOrder (cpu : StaticCPUData) : Json.InOrder cpu.toValue := by
  have hcores : Json.InOrder (.arr (cpu.perCore.map (·.toValue))) := by
    refine .arr fun item hitem => ?_
    obtain ⟨core, -, rfl⟩ := List.mem_map.mp hitem
    exact core.inOrder
  refine inOrder_record (by decide +kernel : ["logical_cores", "per_core", "physical_cores"].Pairwise (· < ·)) ?_
  simp [u64, hcores, Json.InOrder.num]

theorem StaticSystemData.inOrder (system : StaticSystemData) : Json.InOrder system.toValue := by
  have hkeys : ["arch", "distribution_id", "system_host_name", "system_kernel", "system_kernel_version", "system_name",
      "system_os_long_version", "system_os_version", "virtualization"].Pairwise (· < ·) := by decide +kernel
  refine inOrder_record hkeys ?_
  simp [Json.InOrder.str]

theorem StaticGpuData.inOrder (gpu : StaticGpuData) : Json.InOrder gpu.toValue := by
  refine inOrder_record (by decide +kernel : ["architecture", "cuda_cores", "id", "name"].Pairwise (· < ·)) ?_
  simp [u32, u64, Json.InOrder.str, Json.InOrder.num]

theorem inOrder_gpus (gpu : List StaticGpuData) : Json.InOrder (.arr (gpu.map (·.toValue))) := by
  refine .arr fun item hitem => ?_
  obtain ⟨one, -, rfl⟩ := List.mem_map.mp hitem
  exact one.inOrder

/-! ### Equal texts -/

/-- A value as `serde_json` has it: the keys of a map are distinct. -/
def Value : Type := { v : Json // Json.DistinctKeys v }

def valueOf {v : Json} (h : Json.InOrder v) : Value := ⟨v, h.distinctKeys⟩

section Equal
variable (N : NumberWriter)

theorem canonical_inj {v w : Value}
    (h : writeCanonicalJson N.write v.val = writeCanonicalJson N.write w.val) : v.val.sorted = w.val.sorted := by
  rw [writeCanonicalJson_eq _ v.property, writeCanonicalJson_eq _ w.property] at h
  exact text_inj N h

theorem canonical_eq_iff (v w : Value) :
    utf8 (writeCanonicalJson N.write v.val) = utf8 (writeCanonicalJson N.write w.val) ↔
      Json.Reordered v.val w.val := by
  rw [utf8_inj, ← Json.sorted_eq_iff v.property]
  constructor
  · exact canonical_inj N
  · intro h
    rw [writeCanonicalJson_eq _ v.property, writeCanonicalJson_eq _ w.property, h]

theorem joined_eq (cpu system gpu : Value) :
    joined N.write cpu.val system.val gpu.val =
      cpu.val.sorted.text N.write ++
        '\n' :: (system.val.sorted.text N.write ++ '\n' :: gpu.val.sorted.text N.write) := by
  rw [joined, writeCanonicalJson_eq _ cpu.property, writeCanonicalJson_eq _ system.property,
    writeCanonicalJson_eq _ gpu.property]

/-- Each of the three texts says where it ends. -/
theorem joined_inj (cpu system gpu cpu' system' gpu' : Value)
    (h : joined N.write cpu.val system.val gpu.val = joined N.write cpu'.val system'.val gpu'.val) :
    cpu.val.sorted = cpu'.val.sorted ∧ system.val.sorted = system'.val.sorted ∧ gpu.val.sorted = gpu'.val.sorted := by
  rw [joined_eq, joined_eq] at h
  have hbreak : ∀ rest, Delimited ('\n' :: rest) := .cons (by decide)
  obtain ⟨hcpu, hrest⟩ := text_readable N _ _ _ _ (hbreak _) (hbreak _) h
  obtain ⟨hsystem, hlast⟩ := text_readable N _ _ _ _ (hbreak _) (hbreak _) (List.cons.inj hrest).2
  exact ⟨hcpu, hsystem, text_inj N (List.cons.inj hlast).2⟩

theorem joined_eq_iff (cpu system gpu cpu' system' gpu' : Value) :
    utf8 (joined N.write cpu.val system.val gpu.val) = utf8 (joined N.write cpu'.val system'.val gpu'.val) ↔
      Json.Reordered cpu.val cpu'.val ∧ Json.Reordered system.val system'.val ∧ Json.Reordered gpu.val gpu'.val := by
  rw [utf8_inj, ← Json.sorted_eq_iff cpu.property, ← Json.sorted_eq_iff system.property,
    ← Json.sorted_eq_iff gpu.property]
  constructor
  · exact joined_inj N cpu system gpu cpu' system' gpu'
  · intro h
    obtain ⟨hcpu, hsystem, hgpu⟩ := h
    rw [joined_eq, joined_eq, hcpu, hsystem, hgpu]

theorem hashInput_eq_iff (cpu cpu' : StaticCPUData) (system system' : StaticSystemData) (gpu gpu' : List StaticGpuData) :
    hashInput N.write cpu system gpu = hashInput N.write cpu' system' gpu' ↔ cpu = cpu' ∧ system = system' ∧ gpu = gpu' := by
  constructor
  · intro h
    obtain ⟨hcpu, hsystem, hgpu⟩ := joined_inj N (valueOf cpu.inOrder) (valueOf system.inOrder)
      (valueOf (inOrder_gpus gpu)) (valueOf cpu'.inOrder) (valueOf system'.inOrder) (valueOf (inOrder_gpus gpu'))
      (utf8_inj.mp h)
    -- the values of the records are sorted already
    have hcpu : cpu.toValue = cpu'.toValue := cpu.inOrder.sorted_eq.symm.trans (hcpu.trans cpu'.inOrder.sorted_eq)
    have hsystem : system.toValue = system'.toValue :=
      system.inOrder.sorted_eq.symm.trans (hsystem.trans system'.inOrder.sorted_eq)
    have hgpu : Json.arr (gpu.map (·.toValue)) = .arr (gpu'.map (·.toValue)) :=
      (inOrder_gpus gpu).sorted_eq.symm.trans (hgpu.trans (inOrder_gpus gpu').sorted_eq)
    refine ⟨StaticCPUData.toValue_inj hcpu, StaticSystemData.toValue_inj hsystem, ?_⟩
    exact List.map_injective_iff.mpr (fun _ _ => StaticGpuData.toValue_inj) (Json.arr.inj hgpu)
  · intro h
    obtain ⟨rfl, rfl, rfl⟩ := h
    rfl

end Equal

/-- **Canonical JSON**: what is written is the same exactly for values that are the same up to
the order of members; what is hashed is the same exactly for the same three values, and for the
same records. -/
theorem canonical_json_exact (N : NumberWriter) :
    (∀ v w : Value, utf8 (writeCanonicalJson N.write v.val) = utf8 (writeCanonicalJson N.write w.val) ↔
      Json.Reordered v.val w.val) ∧
    (∀ cpu system gpu cpu' system' gpu' : Value,
      utf8 (joined N.write cpu.val system.val gpu.val) = utf8 (joined N.write cpu'.val system'.val gpu'.val) ↔
        Json.Reordered cpu.val cpu'.val ∧ Json.Reordered system.val system'.val ∧ Json.Reordered gpu.val gpu'.val) ∧
    ∀ (cpu cpu' : StaticCPUData) (system system' : StaticSystemData) (gpu gpu' : List StaticGpuData),
      hashInput N.write cpu system gpu = hashInput N.write cpu' system' gpu' ↔
        cpu = cpu' ∧ system = system' ∧ gpu = gpu' :=
  ⟨canonical_eq_iff N, joined_eq_iff N, hashInput_eq_iff N⟩

end NodeGet.Monitoring.CanonicalJson
