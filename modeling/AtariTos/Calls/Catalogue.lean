import AtariTos.Calls.Routine
import AtariTos.Calls.Table

namespace AtariTos

namespace Catalogue

/-- Files, memory and processes, with the calls of later extensions. -/
def gemdos : CallTable Routine where
  layer := .gemdos
  calls := [
    .serviced "Pterm0" 0x00 .endSuccessfully, .serviced "Cconin" 0x01 .readCharacter,
    .serviced "Cconout" 0x02 .writeCharacter, .named "Cauxin" 0x03, .named "Cauxout" 0x04,
    .named "Cprnout" 0x05, .serviced "Crawio" 0x06 .rawInputOutput,
    .serviced "Crawcin" 0x07 .readCharacter, .serviced "Cnecin" 0x08 .readCharacter,
    .serviced "Cconws" 0x09 .printString, .serviced "Cconrs" 0x0a .readString,
    .serviced "Cconis" 0x0b .inputStatus, .named "Dsetdrv" 0x0e,
    .serviced "Cconos" 0x10 .outputStatus, .named "Cprnos" 0x11, .named "Cauxis" 0x12,
    .named "Cauxos" 0x13, .named "Maddalt" 0x14, .serviced "Dgetdrv" 0x19 .currentDrive,
    .serviced "Fsetdta" 0x1a .setTransferAddress, .serviced "Super" 0x20 .switchMode,
    .serviced "Tgetdate" 0x2a .date, .named "Tsetdate" 0x2b, .serviced "Tgettime" 0x2c .time,
    .named "Tsettime" 0x2d, .serviced "Fgetdta" 0x2f .transferAddress,
    .serviced "Sversion" 0x30 .version, .named "Ptermres" 0x31, .named "Dfree" 0x36,
    .serviced "Dcreate" 0x39 .createDirectory, .named "Ddelete" 0x3a,
    .serviced "Dsetpath" 0x3b .setDirectory, .serviced "Fcreate" 0x3c .createFile,
    .serviced "Fopen" 0x3d .openFile, .serviced "Fclose" 0x3e .closeFile,
    .serviced "Fread" 0x3f .readFile, .serviced "Fwrite" 0x40 .writeFile,
    .serviced "Fdelete" 0x41 .deleteFile, .serviced "Fseek" 0x42 .seekFile,
    .serviced "Fattrib" 0x43 .fileAttributes, .named "Mxalloc" 0x44, .named "Fdup" 0x45,
    .named "Fforce" 0x46, .serviced "Dgetpath" 0x47 .currentDirectory,
    .serviced "Malloc" 0x48 .allocateBlock, .serviced "Mfree" 0x49 .freeBlock,
    .serviced "Mshrink" 0x4a .shrinkBlock, .named "Pexec" 0x4b, .serviced "Pterm" 0x4c .endWithCode,
    .serviced "Fsfirst" 0x4e .searchFirst, .serviced "Fsnext" 0x4f .searchNext,
    .named "Frename" 0x56, .serviced "Fdatime" 0x57 .fileTime, .named "Flock" 0x5c,
    .named "Pyield" 0xff, .named "Fpipe" 0x100, .serviced "Fcntl" 0x104 .notAvailable,
    .named "Finstat" 0x105, .named "Foutstat" 0x106, .named "Fgetchar" 0x107,
    .named "Fputchar" 0x108, .named "Pwait" 0x109, .named "Pnice" 0x10a, .named "Pgetpid" 0x10b,
    .named "Pgetppid" 0x10c, .named "Pgetpgrp" 0x10d, .named "Psetpgrp" 0x10e,
    .serviced "Pgetuid" 0x10f .notAvailable, .named "Psetuid" 0x110, .named "Pkill" 0x111,
    .named "Psignal" 0x112, .named "Pvfork" 0x113, .serviced "Pgetgid" 0x114 .notAvailable,
    .named "Psetgid" 0x115, .named "Psigblock" 0x116, .named "Psigsetmask" 0x117,
    .named "Pusrval" 0x118, .serviced "Pdomain" 0x119 .notAvailable, .named "Psigreturn" 0x11a,
    .named "Pfork" 0x11b, .named "Pwait3" 0x11c, .named "Fselect" 0x11d, .named "Prusage" 0x11e,
    .named "Psetlimit" 0x11f, .named "Talarm" 0x120, .named "Pause" 0x121, .named "Sysconf" 0x122,
    .named "Psigpending" 0x123, .named "Dpathconf" 0x124, .named "Pmsg" 0x125,
    .named "Fmidipipe" 0x126, .named "Prenice" 0x127, .named "Dopendir" 0x128,
    .named "Dreaddir" 0x129, .named "Drewinddir" 0x12a, .named "Dclosedir" 0x12b,
    .serviced "Fxattr" 0x12c .notAvailable, .named "Flink" 0x12d, .named "Fsymlink" 0x12e,
    .named "Freadlink" 0x12f, .named "Dcntl" 0x130, .named "Fchown" 0x131, .named "Fchmod" 0x132,
    .serviced "Pumask" 0x133 .notAvailable, .named "Psemaphore" 0x134, .named "Dlock" 0x135,
    .named "Psigpause" 0x136, .named "Psigaction" 0x137, .serviced "Pgeteuid" 0x138 .notAvailable,
    .serviced "Pgetegid" 0x139 .notAvailable, .named "Pwaitpid" 0x13a, .named "Dgetcwd" 0x13b,
    .named "Salert" 0x13c, .serviced "Fstat64" 0x14b .notAvailable,
    .serviced "Ssystem" 0x154 .notAvailable, .serviced "Tgettimeofday" 0x155 .notAvailable,
    .serviced "Ffstat64" 0x15d .notAvailable, .serviced "Psysctl" 0x15e .notAvailable]

def bios : CallTable Routine where
  layer := .bios
  calls := [
    .named "Getmpb" 0x00, .serviced "Bconstat" 0x01 .deviceInputStatus,
    .serviced "Bconin" 0x02 .deviceRead, .serviced "Bconout" 0x03 .deviceWrite, .named "Rwabs" 0x04,
    .serviced "Setexc" 0x05 .exceptionVector, .named "Tickcal" 0x06, .named "Getbpb" 0x07,
    .serviced "Bcostat" 0x08 .deviceOutputStatus, .named "Mediach" 0x09, .named "Drvmap" 0x0a,
    .named "Kbshift" 0x0b]

/-- Hardware. `VsetScreen` shares its code with `Setscreen`, which is declared first. -/
def xbios : CallTable Routine where
  layer := .xbios
  calls := [
    .named "Initmous" 0x00, .named "Ssbrk" 0x01, .named "Physbase" 0x02, .named "Logbase" 0x03,
    .serviced "Getrez" 0x04 .screenResolution, .named "Setscreen" 0x05, .named "VsetScreen" 0x05,
    .named "Setpalette" 0x06, .named "Setcolor" 0x07, .named "Floprd" 0x08, .named "Flopwr" 0x09,
    .named "Flopfmt" 0x0a, .named "Dbmsg" 0x0b, .named "Midiws" 0x0c, .named "Mfpint" 0x0d,
    .named "Iorec" 0x0e, .named "Rsconf" 0x0f, .serviced "Keytbl" 0x10 .keyTables,
    .named "Random" 0x11, .named "Protobt" 0x12, .named "Flopver" 0x13, .named "Scrdmp" 0x14,
    .named "Cursconf" 0x15, .named "Settime" 0x16, .named "Gettime" 0x17,
    .serviced "Bioskeys" 0x18 .resetKeyTables, .named "Ikbdws" 0x19, .named "Jdisint" 0x1a,
    .named "Jenabint" 0x1b, .named "Giaccess" 0x1c, .named "Offgibit" 0x1d, .named "Ongibit" 0x1e,
    .named "Xbtimer" 0x1f, .named "Dosound" 0x20, .named "Setprt" 0x21, .named "Kbdvbase" 0x22,
    .named "Kbrate" 0x23, .named "Prtblk" 0x24, .named "Vsync" 0x25,
    .serviced "Supexec" 0x26 .callSupervisor, .named "Puntaes" 0x27, .named "Floprate" 0x29,
    .named "DMAread" 0x2a, .named "DMAwrite" 0x2b, .named "Bconmap" 0x2c, .named "NVMaccess" 0x2e,
    .named "Metainit" 0x30, .named "Blitmode" 0x40, .named "EsetShift" 0x50,
    .named "EgetShift" 0x51, .named "EsetBank" 0x52, .named "EsetColor" 0x53,
    .named "EsetPalette" 0x54, .named "EgetPalette" 0x55, .named "EsetGray" 0x56,
    .named "EsetSmear" 0x57, .named "VsetMode" 0x58, .named "VgetMonitor" 0x59,
    .named "VsetSync" 0x5a, .named "VgetSize" 0x5b, .named "VsetRGB" 0x5d, .named "VgetRGB" 0x5e,
    .named "Dsp_DoBlock" 0x60, .named "Dsp_BlkHandShake" 0x61, .named "Dsp_BlkUnpacked" 0x62,
    .named "Dsp_InStream" 0x63, .named "Dsp_OutStream" 0x64, .named "Dsp_IOStream" 0x65,
    .named "Dsp_RemoveInterrupts" 0x66, .named "Dsp_GetWordSize" 0x67, .named "Dsp_Lock" 0x68,
    .named "Dsp_Unlock" 0x69, .named "Dsp_Available" 0x6a, .named "Dsp_Reserve" 0x6b,
    .named "Dsp_LoadProg" 0x6c, .named "Dsp_ExecProg" 0x6d, .named "Dsp_ExecBoot" 0x6e,
    .named "Dsp_LodToBinary" 0x6f, .named "Dsp_TriggerHC" 0x70,
    .named "Dsp_RequestUniqueAbility" 0x71, .named "Dsp_GetProgAbility" 0x72,
    .named "Dsp_FlushSubroutines" 0x73, .named "Dsp_LoadSubroutine" 0x74,
    .named "Dsp_InqSubrAbility" 0x75, .named "Dsp_RunSubroutine" 0x76, .named "Dsp_Hf0" 0x77,
    .named "Dsp_Hf1" 0x78, .named "Dsp_Hf2" 0x79, .named "Dsp_Hf3" 0x7a, .named "Dsp_BlkWords" 0x7b,
    .named "Dsp_BlkBytes" 0x7c, .named "Dsp_HStat" 0x7d, .named "Dsp_SetVectors" 0x7e,
    .named "Dsp_MultBlocks" 0x7f, .named "Locksnd" 0x80, .named "Unlocksnd" 0x81,
    .named "Soundcmd" 0x82, .named "Setbuffer" 0x83, .named "Setmode" 0x84, .named "Settracks" 0x85,
    .named "Setmontracks" 0x86, .named "Setinterrupt" 0x87, .named "Buffoper" 0x88,
    .named "Dsptristate" 0x89, .named "Gpio" 0x8a, .named "Devconnect" 0x8b,
    .named "Sndstatus" 0x8c, .named "Buffptr" 0x8d, .named "VsetMask" 0x92, .named "WavePlay" 0xa5]

end Catalogue

end AtariTos
