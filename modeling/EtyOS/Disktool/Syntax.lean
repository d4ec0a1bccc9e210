import EtyOS.Disktool.Arguments

/-!
# The syntax of the commands with a number

A numeral of any length that denotes `n` below 2^32 makes `newpart`, `delpart`
and `selectdisk` call their handlers with `n`, and one turn of the shell is then
this call, its message and nothing else.
-/

namespace EtyOS

open Library NumericLine

section Numerals

variable {digits : List UInt8}

/-- The number of a text of digits only. -/
theorem number_of_isNumeral (h : IsNumeral digits) :
    number digits = UInt32.ofNat (decimalValue digits) := by
  have hall : digits.takeWhile (fun c => IsDecimal c) = digits :=
    List.takeWhile_eq_self_iff.mpr fun c hc => decide_eq_true (h.2.1 c hc)
  rw [number, leadingValue, hall]

theorem toNat_number_of_isNumeral (h : IsNumeral digits) :
    (number digits).toNat = decimalValue digits := by
  rw [number_of_isNumeral h, UInt32.toNat_ofNat', Nat.mod_eq_of_lt h.2.2]

theorem space_notMem_of_isNumeral (h : IsNumeral digits) : 32 ∉ digits := by
  intro hmem
  exact absurd (h.2.1 32 hmem) (by decide)

theorem nul_notMem_of_isNumeral (h : IsNumeral digits) : 0 ∉ digits := by
  intro hmem
  exact absurd (h.2.1 0 hmem) (by decide)

/-- A line that is one with a number runs that command. -/
theorem command_of_numericLine {line : CString} (n : NumericLine)
    (hline : line.bytes = n.line.bytes) : line.command = some n.command := by
  obtain rfl : line = n.line := CString.ext hline
  exact n.line_command

end Numerals

/-- What the lines with a numeral call: the handler with its number, and for a
creation the file system that the line names, FAT32 without one. -/
theorem disktool_syntax {digits : List UInt8} (hdigits : IsNumeral digits) (color : UInt8) :
    ∃ n : UInt32, n.toNat = decimalValue digits ∧
      (∀ line : CString, line.bytes = chars "newpart " ++ digits ∨
          line.bytes = chars "newpart " ++ digits ++ chars " fat32" →
        disktoolLine color line = do
          let rc ← createPartitionMb n .fat32
          console (if rc = 0 then [.str "Partition created successfully.", .newline] else [])
          return true) ∧
      (∀ line : CString, line.bytes = chars "newpart " ++ digits ++ chars " ext4" →
        disktoolLine color line = do
          let rc ← createPartitionMb n .ext4
          console (if rc = 0 then [.str "Partition created successfully.", .newline] else [])
          return true) ∧
      (∀ line : CString, line.bytes = chars "delpart " ++ digits →
        disktoolLine color line = do
          let _ ← deletePartition (cInt n)
          return true) ∧
      ∀ line : CString, line.bytes = chars "selectdisk " ++ digits →
        disktoolLine color line = do
          let rc ← selectDisk (cInt n)
          console (if rc = 0 then [.str "Disk selected successfully.", .newline] else [])
          return true := by
  have hspace := space_notMem_of_isNumeral hdigits
  let argument : CString := ⟨digits, nul_notMem_of_isNumeral hdigits⟩
  have hfat : fsNamed (chars "fat32") = .fat32 := by decide
  have hext : fsNamed (chars "ext4") = .ext4 := by decide
  refine ⟨number digits, toNat_number_of_isNumeral hdigits, ?_, ?_, ?_, ?_⟩
  · intro line hline
    have hcommand : line.command = some (.createPartitionMb (number digits) .fat32) := by
      rcases hline with hline | hline
      · exact command_of_numericLine (.newpart argument hspace none) hline
      · rw [command_of_numericLine (.newpart argument hspace (some ⟨chars "fat32", by decide⟩))
          (by rw [hline, List.append_assoc]; rfl), NumericLine.command, hfat]
    rw [disktoolLine_eq, hcommand]
    rfl
  · intro line hline
    have hcommand : line.command = some (.createPartitionMb (number digits) .ext4) := by
      rw [command_of_numericLine (.newpart argument hspace (some ⟨chars "ext4", by decide⟩))
        (by rw [hline, List.append_assoc]; rfl), NumericLine.command, hext]
    rw [disktoolLine_eq, hcommand]
    rfl
  · intro line hline
    have hcommand : line.command = some (.deletePartition (cInt (number digits))) :=
      command_of_numericLine (.delpart argument) hline
    rw [disktoolLine_eq, hcommand]
    simp only [Command.exec, Command.report, console_nil, pure_bind]
  · intro line hline
    have hcommand : line.command = some (.selectDisk (cInt (number digits))) :=
      command_of_numericLine (.selectdisk argument) hline
    rw [disktoolLine_eq, hcommand]
    rfl

/-- The number 10 with a zero in front. -/
theorem disktool_syntax_ten :
    ∃ n : UInt32, n.toNat = decimalValue (chars "010") ∧
      (∀ line : CString, line.bytes = chars "newpart " ++ chars "010" ∨
          line.bytes = chars "newpart " ++ chars "010" ++ chars " fat32" →
        disktoolLine 0 line = do
          let rc ← createPartitionMb n .fat32
          console (if rc = 0 then [.str "Partition created successfully.", .newline] else [])
          return true) ∧
      (∀ line : CString, line.bytes = chars "newpart " ++ chars "010" ++ chars " ext4" →
        disktoolLine 0 line = do
          let rc ← createPartitionMb n .ext4
          console (if rc = 0 then [.str "Partition created successfully.", .newline] else [])
          return true) ∧
      (∀ line : CString, line.bytes = chars "delpart " ++ chars "010" →
        disktoolLine 0 line = do
          let _ ← deletePartition (cInt n)
          return true) ∧
      ∀ line : CString, line.bytes = chars "selectdisk " ++ chars "010" →
        disktoolLine 0 line = do
          let rc ← selectDisk (cInt n)
          console (if rc = 0 then [.str "Disk selected successfully.", .newline] else [])
          return true := by
  have hten : chars "010" = [48, 49, 48] := by decide
  have hdigits : ∀ c ∈ chars "010", IsDecimal c := by
    intro c hc
    rw [hten] at hc
    simp only [List.mem_cons, List.not_mem_nil, or_false] at hc
    rcases hc with rfl | rfl | rfl <;> decide
  exact disktool_syntax ⟨by decide, hdigits, by decide⟩ 0

end EtyOS
