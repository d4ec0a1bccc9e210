import EtyOS.Console.CString
import EtyOS.Kernel.Boot
import EtyOS.Kernel.Output
import EtyOS.Disktool.Display
import EtyOS.Disktool.TableAccess

/-!
# The filesystem check

`check_filesystem` tests sector 0 of the primary master for three signatures and
dumps its beginning. The offsets of all reads are recorded: the last signature is
looked for far behind the array, and it is looked for whenever the first two are
missing.
-/

namespace EtyOS

open Library

def hexDigit (v : UInt8) : Char := hexChars.getD v.toNat '0'

namespace Reading

/-- `buffer[a] == 'F' && buffer[a + 1] == 'A' && …`, for the characters of `text`. -/
def testSignature (array : LocalArray) : ℤ → List UInt8 → Reading Bool
  | _, [] => return true
  | a, c :: text => do
    if (← readByte array a) = c then testSignature array (a + 1) text else return false

/-- `n` bytes from `i` on, in hexadecimal. -/
def dumpBytes (array : LocalArray) (i : ℤ) : ℕ → Reading Unit
  | 0 => return ()
  | n + 1 => do
    let high := hexDigit ((← readByte array i) >>> 4)
    let low := hexDigit ((← readByte array i) &&& 0x0F)
    console [.str (String.ofList [high, low]), .str " "]
    dumpBytes array (i + 1) n

end Reading

/-- The array as it is after the attempt to load sector 0. -/
def readBootSector (buffer : Memory) : Kernel Memory := do
  let (rc, buffer) ← ataReadSector 0 0 buffer
  if rc ≠ 0 then console [.str "Error: Unable to read boot sector."]
  return buffer

/-- The tests and the dump of `check_filesystem`. -/
def classifySector (buffer : LocalArray) : Reading Unit := do
  if ← Reading.testSignature buffer 0x52 (chars "FAT32") then
    console [.str "Filesystem detected: FAT32"]
  else if ← Reading.testSignature buffer 0x36 (chars "FAT16") then
    console [.str "Filesystem detected: FAT16"]
  else if ← Reading.testSignature buffer 0x8001 (chars "CD001") then
    console [.str "Filesystem detected: ISO9660 (CD-ROM)"]
  else
    console [.str "Filesystem type: Unknown or unsupported.", .str "Boot Sector Data: "]
    Reading.dumpBytes buffer 0 64
    console [.newline]

/-- `frame` holds what the array and the bytes around it hold on entry. -/
def checkFilesystem (frame : LocalArray) : Reading Unit := do
  console [.str "Checking filesystem...", .newline]
  let buffer ← readBootSector fun i => frame i
  classifySector (.ofMemory buffer frame)
  console [.newline]

/-! ### The reads -/

namespace LocalArray

/-- The bytes of `text` lie at offset `a`. -/
def HasSignature (array : LocalArray) : ℤ → List UInt8 → Prop
  | _, [] => True
  | a, c :: text => array a = c ∧ HasSignature array (a + 1) text

instance decidableHasSignature (array : LocalArray) :
    ∀ a text, Decidable (HasSignature array a text)
  | _, [] => inferInstanceAs (Decidable True)
  | a, _ :: text =>
    have := decidableHasSignature array (a + 1) text
    inferInstanceAs (Decidable (_ ∧ _))

/-- The offsets of a test: it ends at the first byte that differs. -/
def testSpan (array : LocalArray) : ℤ → List UInt8 → List ℤ
  | _, [] => []
  | a, c :: text => a :: if array a = c then testSpan array (a + 1) text else []

/-- The offsets of a dump, which looks at every byte twice. -/
def dumpSpan (i : ℤ) : ℕ → List ℤ
  | 0 => []
  | n + 1 => i :: i :: dumpSpan (i + 1) n

/-- The offsets that the classification of a sector looks at. -/
def classifySpan (array : LocalArray) : List ℤ :=
  array.testSpan 0x52 (chars "FAT32") ++
    if array.HasSignature 0x52 (chars "FAT32") then [] else
      array.testSpan 0x36 (chars "FAT16") ++
        if array.HasSignature 0x36 (chars "FAT16") then [] else
          array.testSpan 0x8001 (chars "CD001") ++
            if array.HasSignature 0x8001 (chars "CD001") then [] else dumpSpan 0 64

theorem mem_testSpan {array : LocalArray} {a o : ℤ} {text : List UInt8}
    (h : o ∈ array.testSpan a text) : a ≤ o ∧ o < a + text.length := by
  induction text generalizing a with
  | nil => simp [testSpan] at h
  | cons c text ih =>
    rw [testSpan, List.mem_cons] at h
    rw [List.length_cons]
    rcases h with rfl | h
    · omega
    · split at h
      · have := ih h
        omega
      · simp at h

end LocalArray

section Reads

variable (array : LocalArray)

theorem readByte_appends (a : ℤ) (s : Machine) :
    Appends (Reading.readByte array a) s [a] (array a) s :=
  (Appends.note a s).bind (Appends.pure _ s)

theorem testSignature_appends (a : ℤ) (text : List UInt8) (s : Machine) :
    Appends (Reading.testSignature array a text) s (array.testSpan a text)
      (decide (array.HasSignature a text)) s := by
  induction text generalizing a with
  | nil => exact Appends.pure true s
  | cons c text ih =>
    have hrest : Appends (if array a = c then Reading.testSignature array (a + 1) text
        else return false) s (if array a = c then array.testSpan (a + 1) text else [])
        (decide (array.HasSignature a (c :: text))) s := by
      by_cases hc : array a = c
      · simp only [hc, if_true, LocalArray.HasSignature, true_and]
        exact ih (a + 1)
      · simp only [hc, if_false, LocalArray.HasSignature, false_and, decide_false]
        exact Appends.pure false s
    exact (readByte_appends array a s).bind hrest

theorem dumpBytes_appends (i : ℤ) (n : ℕ) (s : Machine) :
    ∃ s', Appends (Reading.dumpBytes array i n) s (LocalArray.dumpSpan i n) () s' := by
  induction n generalizing i s with
  | zero => exact ⟨s, Appends.pure () s⟩
  | succ n ih =>
    obtain ⟨s', hrest⟩ := ih (i + 1) _
    exact ⟨s', (readByte_appends array i s).bind
      ((readByte_appends array i s).bind ((Appends.lift (run_console _ s)).bind hrest))⟩

/-- A test of a signature, and what follows it in the two cases. -/
theorem ite_signature_appends {a : ℤ} {text : List UInt8} {x y : Reading Unit} {s : Machine}
    {later : List ℤ} (hx : ∃ s', Appends x s [] () s') (hy : ∃ s', Appends y s later () s') :
    ∃ s', Appends (do if ← Reading.testSignature array a text then x else y) s
      (array.testSpan a text ++ if array.HasSignature a text then [] else later) () s' := by
  have htest := testSignature_appends array a text s
  by_cases hfound : array.HasSignature a text
  · obtain ⟨s', hx⟩ := hx
    rw [decide_eq_true hfound] at htest
    rw [if_pos hfound]
    exact ⟨s', htest.bind hx⟩
  · obtain ⟨s', hy⟩ := hy
    rw [decide_eq_false hfound] at htest
    rw [if_neg hfound]
    exact ⟨s', htest.bind hy⟩

theorem classifySector_appends (s : Machine) :
    ∃ s', Appends (classifySector array) s array.classifySpan () s' := by
  have hprint (calls : List PrintCall) :
      ∃ s', Appends (liftM (console calls) : Reading Unit) s [] () s' :=
    ⟨_, Appends.lift (run_console calls s)⟩
  refine ite_signature_appends array (hprint _) (ite_signature_appends array (hprint _)
    (ite_signature_appends array (hprint _) ?_))
  obtain ⟨s', hdump⟩ := dumpBytes_appends array 0 64 (s.print [_, _])
  exact ⟨_, (Appends.lift (run_console _ s)).bind
    (hdump.bind (Appends.lift (run_console _ s')))⟩

/-- Without a FAT signature the first byte of the third test is looked at. -/
theorem LocalArray.far_mem_classifySpan {array : LocalArray}
    (h32 : ¬array.HasSignature 0x52 (chars "FAT32"))
    (h16 : ¬array.HasSignature 0x36 (chars "FAT16")) : 0x8001 ∈ array.classifySpan := by
  have hfar : (0x8001 : ℤ) ∈ array.testSpan 0x8001 (chars "CD001") := List.mem_cons_self
  rw [classifySpan, if_neg h32, if_neg h16]
  simp [hfar]

/-- The reads stay in the array exactly when one of the first two tests succeeds. -/
theorem LocalArray.classifySpan_within_iff :
    (∀ a ∈ array.classifySpan, 0 ≤ a ∧ a < sectorSize) ↔
      array.HasSignature 0x52 (chars "FAT32") ∨ array.HasSignature 0x36 (chars "FAT16") := by
  constructor
  · intro hwithin
    by_contra hneither
    obtain ⟨h32, h16⟩ := not_or.mp hneither
    have hlt := (hwithin 0x8001 (far_mem_classifySpan h32 h16)).2
    simp [sectorSize] at hlt
  · intro hfound a ha
    unfold classifySpan at ha
    have hfirst : a ∈ array.testSpan 0x52 (chars "FAT32") → 0 ≤ a ∧ a < sectorSize := by
      intro h
      have hspan := mem_testSpan h
      have hlength : (chars "FAT32").length = 5 := by decide
      unfold sectorSize
      omega
    by_cases h32 : array.HasSignature 0x52 (chars "FAT32")
    · rw [if_pos h32, List.append_nil] at ha
      exact hfirst ha
    · have h16 := hfound.resolve_left h32
      rw [if_neg h32, if_pos h16, List.append_nil, List.mem_append] at ha
      rcases ha with h | h
      · exact hfirst h
      · have hspan := mem_testSpan h
        have hlength : (chars "FAT16").length = 5 := by decide
        unfold sectorSize
        omega

end Reads

/-! ### Every sector -/

/-- What the array holds after `read_boot_sector`: sector 0 of the primary master, or
what it held before if the drive has aborted the read. -/
def Machine.bootArray (s : Machine) (frame : LocalArray) : LocalArray :=
  if s.bus.next.abort then frame else .ofMemory (s.bus.media 0 0 0).mbr frame

theorem LocalArray.ofMemory_self (frame : LocalArray) :
    ofMemory (fun i => frame i) frame = frame := by
  funext a
  unfold ofMemory
  split
  · exact congrArg frame (Int.toNat_of_nonneg (by omega))
  · rfl

theorem LocalArray.ofMemory_toMemory (x : Sector) (m : Memory) (frame : LocalArray) :
    ofMemory (x.toMemory m 0) frame = ofMemory x.mbr frame := by
  funext a
  unfold ofMemory
  by_cases ha : 0 ≤ a ∧ a < 512
  · rw [if_pos ha, if_pos ha, Sector.mbr, Sector.toMemory, Sector.toMemory, dif_pos (by omega),
      dif_pos (by omega)]
  · rw [if_neg ha, if_neg ha]

theorem readBootSector_run (frame : LocalArray) (s : Machine) :
    ∃ buffer s', (readBootSector fun i => frame i).run s = some (buffer, s') ∧
      LocalArray.ofMemory buffer frame = s.bootArray frame := by
  have hread := run_readSector 0 0 0 0 (fun i => frame i) s
  unfold readBootSector Machine.bootArray
  rw [ataReadSector_eq_disk]
  by_cases habort : s.bus.next.abort = true
  · rw [if_pos habort] at hread
    rw [run_bind_of_run _ hread, if_pos habort]
    exact ⟨_, _, rfl, LocalArray.ofMemory_self frame⟩
  · rw [if_neg habort] at hread
    rw [run_bind_of_run _ hread, if_neg habort]
    exact ⟨_, _, rfl, LocalArray.ofMemory_toMemory _ _ _⟩

theorem checkFilesystem_appends (frame : LocalArray) (s : Machine) :
    ∃ s', Appends (checkFilesystem frame) s (s.bootArray frame).classifySpan () s' := by
  obtain ⟨buffer, s₁, hboot, harray⟩ :=
    readBootSector_run frame (s.print [.str "Checking filesystem...", .newline])
  have harray' : LocalArray.ofMemory buffer frame = s.bootArray frame := harray
  obtain ⟨s₂, hclassify⟩ := classifySector_appends (LocalArray.ofMemory buffer frame) s₁
  rw [← harray', ← List.append_nil (LocalArray.classifySpan _)]
  exact ⟨_, (Appends.lift (run_console _ s)).bind ((Appends.lift hboot).bind
    (hclassify.bind (Appends.lift (run_console [.newline] s₂))))⟩

/-- For every sector 0 and whatever lies around the array: `check_filesystem` comes
back, and reads inside the array only if it has found one of the FAT signatures. -/
theorem check_filesystem_within_iff (frame : LocalArray) (s : Machine) :
    ∃ reads s', ((checkFilesystem frame).run []).run s = some (((), reads), s') ∧
      ((∀ a ∈ reads, 0 ≤ a ∧ a < sectorSize) ↔
        (s.bootArray frame).HasSignature 0x52 (chars "FAT32") ∨
          (s.bootArray frame).HasSignature 0x36 (chars "FAT16")) := by
  obtain ⟨s', hrun⟩ := checkFilesystem_appends frame s
  exact ⟨_, s', hrun [], LocalArray.classifySpan_within_iff _⟩

/-- On a blank disk the check looks at offset 0x8001 of its array of 512 bytes. -/
theorem check_filesystem_blank :
    ∃ reads s', ((checkFilesystem fun _ => 0).run []).run (blankMachine primaryMaster) =
      some (((), reads), s') ∧ ∃ a ∈ reads, ¬(0 ≤ a ∧ a < sectorSize) := by
  obtain ⟨s', hrun⟩ := checkFilesystem_appends (fun _ => 0) (blankMachine primaryMaster)
  refine ⟨_, s', hrun [], 0x8001, ?_, by simp [sectorSize]⟩
  exact LocalArray.far_mem_classifySpan (by decide) (by decide)

/-! ### What it leaves alone -/

section Quiet

variable (array : LocalArray)

theorem testSignature_quiet (a : ℤ) (text : List UInt8) :
    RelatesAny Machine.Quiet (Reading.testSignature array a text) := by
  induction text generalizing a with
  | nil => exact RelatesAny.pure true
  | cons c text ih =>
    refine ((RelatesAny.note a).bind fun _ => RelatesAny.pure _).bind fun b => ?_
    exact RelatesAny.ite (fun _ => ih (a + 1)) fun _ => RelatesAny.pure false

theorem dumpBytes_quiet (i : ℤ) (n : ℕ) :
    RelatesAny Machine.Quiet (Reading.dumpBytes array i n) := by
  induction n generalizing i with
  | zero => exact RelatesAny.pure ()
  | succ n ih =>
    refine ((RelatesAny.note i).bind fun _ => RelatesAny.pure _).bind fun high => ?_
    refine ((RelatesAny.note i).bind fun _ => RelatesAny.pure _).bind fun low => ?_
    exact (RelatesAny.lift (quiet_console (by simp [PrintCall.Colorless]))).bind fun _ => ih (i + 1)

theorem readBootSector_quiet (buffer : Memory) :
    Relates Machine.Quiet (readBootSector buffer) := by
  rw [readBootSector, ataReadSector_eq_disk]
  refine (quiet_readSector _ _ _ _ _).bind fun r => ?_
  exact Relates.ite (fun _ => (quiet_console (by simp [PrintCall.Colorless])).bind fun _ =>
    Relates.pure _) fun _ => Relates.pure _

theorem classifySector_quiet : RelatesAny Machine.Quiet (classifySector array) := by
  have hprint {calls : List PrintCall} (h : ∀ c ∈ calls, c.Colorless) :
      RelatesAny Machine.Quiet (liftM (console calls) : Reading Unit) :=
    RelatesAny.lift (quiet_console h)
  refine (testSignature_quiet _ _ _).bind fun _ =>
    RelatesAny.ite (fun _ => hprint (by simp [PrintCall.Colorless])) fun _ => ?_
  refine (testSignature_quiet _ _ _).bind fun _ =>
    RelatesAny.ite (fun _ => hprint (by simp [PrintCall.Colorless])) fun _ => ?_
  refine (testSignature_quiet _ _ _).bind fun _ =>
    RelatesAny.ite (fun _ => hprint (by simp [PrintCall.Colorless])) fun _ => ?_
  refine (hprint (by simp [PrintCall.Colorless])).bind fun _ => ?_
  exact (dumpBytes_quiet _ _ _).bind fun _ => hprint (by simp [PrintCall.Colorless])

theorem checkFilesystem_handles (frame : LocalArray) :
    Handles PrintCall.Colorless (fun _ => True) ((checkFilesystem frame).run []) := by
  apply handles_of_quiet
  · intro s
    obtain ⟨s', hrun⟩ := checkFilesystem_appends frame s
    exact ⟨_, s', hrun []⟩
  · have hquiet : RelatesAny Machine.Quiet (checkFilesystem frame) := by
      refine (RelatesAny.lift (quiet_console (by simp [PrintCall.Colorless]))).bind fun _ => ?_
      refine (RelatesAny.lift (readBootSector_quiet _)).bind fun buffer => ?_
      exact (classifySector_quiet _).bind fun _ =>
        RelatesAny.lift (quiet_console (by simp [PrintCall.Colorless]))
    exact hquiet []

end Quiet

end EtyOS
