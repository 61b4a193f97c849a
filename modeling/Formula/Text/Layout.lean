/-! Fixed width fields in messages. -/
namespace Formula.Text

def padLeft (width : Nat) (s : String) : String :=
  "".pushn ' ' (width - s.length) ++ s

end Formula.Text
