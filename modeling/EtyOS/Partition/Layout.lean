import EtyOS.Library.PackedStruct

/-!
# The on-disk records of `partition.h` and `partition.c`

The four packed structures, field for field with their sizes. Offsets and the
sizes of the whole records are computed from the tables.
-/

namespace EtyOS

open Library

/-- The fields of `PartitionEntry`. -/
inductive PartitionField where
  | status | startHead | startSector | type | endHead | endSector | lbaFirst | sectorCount
  deriving DecidableEq

/-- One entry of the partition table of an MBR. -/
def partitionEntry : Layout PartitionField :=
  ⟨[
    (.status, 1), (.startHead, 1), (.startSector, 2), (.type, 1), (.endHead, 1),
    (.endSector, 2), (.lbaFirst, 4), (.sectorCount, 4)]⟩

/-- The fields of `Ext4Superblock`. -/
inductive SuperblockField where
  | sInodesCount | sBlocksCountLo | sRBlocksCountLo | sFreeBlocksCountLo | sFreeInodesCount
  | sFirstDataBlock | sLogBlockSize | sLogClusterSize | sBlocksPerGroup | sClustersPerGroup
  | sInodesPerGroup | sMtime | sWtime | sMntCount | sMaxMntCount | sMagic | sState | sErrors
  | sMinorRevLevel | sLastcheck | sCheckinterval | sCreatorOs | sRevLevel | sDefResuid
  | sDefResgid | sFirstIno | sInodeSize | sBlockGroupNr | sFeatureCompat | sFeatureIncompat
  | sFeatureRoCompat | sUuid | sVolumeName | sLastMounted | sAlgorithmUsageBitmap
  | sPreallocBlocks | sPreallocDirBlocks | sReservedGdtBlocks | sJournalUuid | sJournalInum
  | sJournalDev | sLastOrphan | sHashSeed | sDefHashVersion | sJnlBackupType | sDescSize
  | sDefaultMountOpts | sFirstMetaBg | sMkfsTime | sJnlBlocks | sBlocksCountHi
  | sRBlocksCountHi | sFreeBlocksCountHi | sMinExtraIsize | sWantExtraIsize | sFlags
  | sRaidStride | sMmpInterval | sMmpBlock | sRaidStripeWidth | sLogGroupsPerFlex
  | sChecksumType | sReservedPad | sKbytesWritten | sSnapshotInum | sSnapshotId
  | sSnapshotRBlocksCount | sSnapshotList | sErrorCount | sFirstErrorTime | sFirstErrorIno
  | sFirstErrorBlock | sFirstErrorFunc | sFirstErrorLine | sLastErrorTime | sLastErrorIno
  | sLastErrorLine | sLastErrorBlock | sLastErrorFunc | sMountOpts | sUsrQuotaInum
  | sGrpQuotaInum | sOverheadBlocks | sBackupBgs | sEncryptAlgos | sEncryptPwSalt | sLpfIno
  | sPrjQuotaInum | sChecksumSeed | sReserved | sChecksum
  deriving DecidableEq

/-- The ext4 superblock, as `partition.h` declares it. -/
def ext4Superblock : Layout SuperblockField :=
  ⟨[
    (.sInodesCount, 4), (.sBlocksCountLo, 4), (.sRBlocksCountLo, 4), (.sFreeBlocksCountLo, 4),
    (.sFreeInodesCount, 4), (.sFirstDataBlock, 4), (.sLogBlockSize, 4), (.sLogClusterSize, 4),
    (.sBlocksPerGroup, 4), (.sClustersPerGroup, 4), (.sInodesPerGroup, 4), (.sMtime, 4),
    (.sWtime, 4), (.sMntCount, 2), (.sMaxMntCount, 2), (.sMagic, 2), (.sState, 2),
    (.sErrors, 2), (.sMinorRevLevel, 2), (.sLastcheck, 4), (.sCheckinterval, 4),
    (.sCreatorOs, 4), (.sRevLevel, 4), (.sDefResuid, 2), (.sDefResgid, 2), (.sFirstIno, 4),
    (.sInodeSize, 2), (.sBlockGroupNr, 2), (.sFeatureCompat, 4), (.sFeatureIncompat, 4),
    (.sFeatureRoCompat, 4), (.sUuid, 16), (.sVolumeName, 16), (.sLastMounted, 64),
    (.sAlgorithmUsageBitmap, 4), (.sPreallocBlocks, 1), (.sPreallocDirBlocks, 1),
    (.sReservedGdtBlocks, 2), (.sJournalUuid, 16), (.sJournalInum, 4), (.sJournalDev, 4),
    (.sLastOrphan, 4), (.sHashSeed, 16), (.sDefHashVersion, 1), (.sJnlBackupType, 1),
    (.sDescSize, 2), (.sDefaultMountOpts, 4), (.sFirstMetaBg, 4), (.sMkfsTime, 4),
    (.sJnlBlocks, 68), (.sBlocksCountHi, 4), (.sRBlocksCountHi, 4), (.sFreeBlocksCountHi, 4),
    (.sMinExtraIsize, 2), (.sWantExtraIsize, 2), (.sFlags, 4), (.sRaidStride, 2),
    (.sMmpInterval, 2), (.sMmpBlock, 8), (.sRaidStripeWidth, 4), (.sLogGroupsPerFlex, 1),
    (.sChecksumType, 1), (.sReservedPad, 2), (.sKbytesWritten, 8), (.sSnapshotInum, 4),
    (.sSnapshotId, 4), (.sSnapshotRBlocksCount, 8), (.sSnapshotList, 4), (.sErrorCount, 4),
    (.sFirstErrorTime, 4), (.sFirstErrorIno, 4), (.sFirstErrorBlock, 8),
    (.sFirstErrorFunc, 32), (.sFirstErrorLine, 4), (.sLastErrorTime, 4), (.sLastErrorIno, 4),
    (.sLastErrorLine, 4), (.sLastErrorBlock, 8), (.sLastErrorFunc, 32), (.sMountOpts, 64),
    (.sUsrQuotaInum, 4), (.sGrpQuotaInum, 4), (.sOverheadBlocks, 4), (.sBackupBgs, 8),
    (.sEncryptAlgos, 4), (.sEncryptPwSalt, 16), (.sLpfIno, 4), (.sPrjQuotaInum, 4),
    (.sChecksumSeed, 4), (.sReserved, 98), (.sChecksum, 4)]⟩

/-- The fields of `Ext4GroupDesc`. -/
inductive GroupDescField where
  | bgBlockBitmapLo | bgInodeBitmapLo | bgInodeTableLo | bgFreeBlocksCountLo
  | bgFreeInodesCountLo | bgUsedDirsCountLo | bgFlags | bgExcludeBitmapLo | bgBlockBitmapCsumLo
  | bgInodeBitmapCsumLo | bgItableUnusedLo | bgChecksum | bgBlockBitmapHi | bgInodeBitmapHi
  | bgInodeTableHi | bgFreeBlocksCountHi | bgFreeInodesCountHi | bgUsedDirsCountHi
  | bgItableUnusedHi | bgExcludeBitmapHi | bgBlockBitmapCsumHi | bgInodeBitmapCsumHi
  | bgReserved
  deriving DecidableEq

/-- The descriptor of an ext4 block group. -/
def ext4GroupDesc : Layout GroupDescField :=
  ⟨[
    (.bgBlockBitmapLo, 4), (.bgInodeBitmapLo, 4), (.bgInodeTableLo, 4),
    (.bgFreeBlocksCountLo, 2), (.bgFreeInodesCountLo, 2), (.bgUsedDirsCountLo, 2),
    (.bgFlags, 2), (.bgExcludeBitmapLo, 4), (.bgBlockBitmapCsumLo, 2),
    (.bgInodeBitmapCsumLo, 2), (.bgItableUnusedLo, 2), (.bgChecksum, 2), (.bgBlockBitmapHi, 4),
    (.bgInodeBitmapHi, 4), (.bgInodeTableHi, 4), (.bgFreeBlocksCountHi, 2),
    (.bgFreeInodesCountHi, 2), (.bgUsedDirsCountHi, 2), (.bgItableUnusedHi, 2),
    (.bgExcludeBitmapHi, 4), (.bgBlockBitmapCsumHi, 2), (.bgInodeBitmapCsumHi, 2),
    (.bgReserved, 4)]⟩

/-- The fields of `FAT32BootSector`. -/
inductive BootSectorField where
  | jumpBoot | oemName | bytesPerSector | sectorsPerCluster | reservedSectors | numFats
  | rootEntries | totalSectors16 | mediaType | sectorsPerFat16 | sectorsPerTrack | numHeads
  | hiddenSectors | totalSectors32 | sectorsPerFat32 | extendedFlags | fsVersion | rootCluster
  | fsInfo | backupBoot | reserved | driveNumber | reserved1 | bootSignature | volumeId
  | volumeLabel | fsType | bootCode | bootSignature2
  deriving DecidableEq

/-- The boot sector of a FAT32 volume. -/
def fat32BootSector : Layout BootSectorField :=
  ⟨[
    (.jumpBoot, 3), (.oemName, 8), (.bytesPerSector, 2), (.sectorsPerCluster, 1),
    (.reservedSectors, 2), (.numFats, 1), (.rootEntries, 2), (.totalSectors16, 2),
    (.mediaType, 1), (.sectorsPerFat16, 2), (.sectorsPerTrack, 2), (.numHeads, 2),
    (.hiddenSectors, 4), (.totalSectors32, 4), (.sectorsPerFat32, 4), (.extendedFlags, 2),
    (.fsVersion, 2), (.rootCluster, 4), (.fsInfo, 2), (.backupBoot, 2), (.reserved, 12),
    (.driveNumber, 1), (.reserved1, 1), (.bootSignature, 1), (.volumeId, 4),
    (.volumeLabel, 11), (.fsType, 8), (.bootCode, 420), (.bootSignature2, 2)]⟩

section Sizes

theorem sizeof_partitionEntry : partitionEntry.sizeof = 16 := by decide

/-- The declared superblock is larger than a sector. -/
theorem sizeof_ext4Superblock : ext4Superblock.sizeof = 730 := by decide

theorem sizeof_ext4GroupDesc : ext4GroupDesc.sizeof = 64 := by decide

theorem sizeof_fat32BootSector : fat32BootSector.sizeof = 512 := by decide

end Sizes

end EtyOS
