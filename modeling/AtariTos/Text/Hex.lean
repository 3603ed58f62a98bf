namespace AtariTos

/-- Lower-case hexadecimal digits, filled with zeros to at least `width` digits. -/
def hex (width n : Nat) : String :=
  let digits := Nat.toDigits 16 n
  String.ofList (List.replicate (width - digits.length) '0' ++ digits)

def hexAddress (n : Nat) : String :=
  s!"0x{hex 6 n}"

end AtariTos
