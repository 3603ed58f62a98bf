import AtariTos.Bytes

namespace AtariTos

def basepageLen : Nat := 256

/-- The longest command tail; its length byte and a closing zero fit beside it. -/
def commandTailMax : Nat := 125

structure Basepage where
  lowTpa : UInt32
  highTpa : UInt32
  textBase : UInt32
  textLen : UInt32
  dataBase : UInt32
  dataLen : UInt32
  bssBase : UInt32
  bssLen : UInt32
  dta : UInt32 := 0
  parent : UInt32 := 0
  reserved : UInt32 := 0
  environment : UInt32 := 0
  undefined : Vector UInt8 80 := Vector.replicate 80 0
  command : Vector UInt8 128 := Vector.replicate 128 0
deriving DecidableEq

namespace Basepage

/-- Lays the segments out back to back behind the basepage itself. -/
def layout (lowTpa highTpa textLen dataLen bssLen : UInt32) : Basepage :=
  let textBase := lowTpa + 0x100
  let dataBase := textBase + textLen
  let bssBase := dataBase + dataLen
  { lowTpa, highTpa, textBase, textLen, dataBase, dataLen, bssBase, bssLen }

/-- The arguments separated by spaces, cut to what fits. The cut is between bytes. -/
def commandTail (args : List String) : List UInt8 :=
  (" ".intercalate args).toUTF8.toList.take commandTailMax

def withArguments (page : Basepage) (args : List String) : Basepage :=
  let tail := commandTail args
  { page with
    command := Vector.ofFn fun i =>
      if i.val = 0 then tail.length.toUInt8 else tail.getD (i.val - 1) 0 }

def tail (page : Basepage) : List UInt8 :=
  (page.command.toList.drop 1).take (min page.command[0].toNat commandTailMax)

def longs (page : Basepage) : List UInt32 :=
  [page.lowTpa, page.highTpa, page.textBase, page.textLen, page.dataBase, page.dataLen,
    page.bssBase, page.bssLen, page.dta, page.parent, page.reserved, page.environment]

def encode (page : Basepage) : List UInt8 :=
  page.longs.flatMap bytesOfLong ++ page.undefined.toList ++ page.command.toList

def decode? (bytes : Bytes) : Option Basepage :=
  let long (index : Nat) : UInt32 := (Bytes.long? bytes (4 * index)).getD 0
  if h : basepageLen ≤ bytes.size then
    some
      { lowTpa := long 0
        highTpa := long 1
        textBase := long 2
        textLen := long 3
        dataBase := long 4
        dataLen := long 5
        bssBase := long 6
        bssLen := long 7
        dta := long 8
        parent := long 9
        reserved := long 10
        environment := long 11
        undefined := ⟨bytes.extract 48 128, by
          simp only [Array.size_extract]
          unfold basepageLen at h
          omega⟩
        command := ⟨bytes.extract 128 256, by
          simp only [Array.size_extract]
          unfold basepageLen at h
          omega⟩ }
  else none

end Basepage

end AtariTos
