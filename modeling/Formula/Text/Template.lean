import Formula.Text.Quoted

/-! Templates of messages. A place in a template is a percent sign, then flags, a width and a
precision, which may all be missing, and a letter that says how an argument is written there. Places
take the arguments in order. `%%` is a single percent sign and takes none. -/
namespace Formula.Text

inductive TemplateArgument where
  | text (s : String)
  | number (n : Int)
  | flag (b : Bool)
  | absent
deriving DecidableEq, Inhabited

inductive TemplateFault where
  /-- Places and arguments do not go together, in number or in kind. -/
  | mismatch
  /-- A place without a letter, or with one that has no meaning. -/
  | malformed
deriving DecidableEq, Repr, Inhabited

namespace TemplateArgument

def toText : TemplateArgument → String
  | text s => s
  | number n => toString n
  | flag b => if b then "True" else "False"
  | absent => "None"

def describe : TemplateArgument → String
  | text s => quoted s
  | a => a.toText

def integer? : TemplateArgument → Except TemplateFault Int
  | number n => .ok n
  | flag b => .ok (if b then 1 else 0)
  | _ => .error .mismatch

def character? : TemplateArgument → Except TemplateFault (List Char)
  | text s => if s.length = 1 then .ok s.toList else .error .mismatch
  | a => a.integer?.map fun n => [Char.ofNat n.toNat]

end TemplateArgument

structure Place where
  flags : List Char
  width : Nat
  /-- The most characters of a text, or the fewest digits of a number. -/
  precision : Option Nat
deriving DecidableEq, Inhabited

def takeNumber (cs : List Char) : Nat × List Char :=
  ((cs.takeWhile Char.isDigit).foldl (fun n c => 10 * n + (c.toNat - 48)) 0,
    cs.dropWhile Char.isDigit)

namespace Place

def isFlag (c : Char) : Bool := ['-', '+', ' ', '#', '0'].contains c

def take (cs : List Char) : Place × List Char :=
  let flags := cs.takeWhile isFlag
  let (width, rest) := takeNumber (cs.dropWhile isFlag)
  let (precision, rest) :=
    match rest with
    | '.' :: rest => let (n, rest) := takeNumber rest; (some n, rest)
    | rest => (none, rest)
  let rest :=
    match rest with
    | 'h' :: rest | 'l' :: rest | 'L' :: rest => rest
    | rest => rest
  (⟨flags, width, precision⟩, rest)

def align (p : Place) (cs : List Char) : List Char :=
  let blanks := List.replicate (p.width - cs.length) ' '
  if p.flags.contains '-' then cs ++ blanks else blanks ++ cs

def writeText (p : Place) (s : String) : List Char :=
  p.align (match p.precision with
    | some n => s.toList.take n
    | none => s.toList)

def sign (p : Place) (n : Int) : List Char :=
  if n < 0 then ['-'] else if p.flags.contains '+' then ['+']
  else if p.flags.contains ' ' then [' '] else []

def writeNumber (p : Place) (base : Nat) (mark : List Char) (n : Int) : List Char :=
  let digits := Nat.toDigits base n.natAbs
  let digits := List.replicate (p.precision.getD 0 - digits.length) '0' ++ digits
  let front := p.sign n ++ (if p.flags.contains '#' then mark else [])
  let zeros :=
    if p.flags.contains '0' && !p.flags.contains '-' then
      List.replicate (p.width - (front.length + digits.length)) '0'
    else []
  p.align (front ++ zeros ++ digits)

def write (p : Place) (letter : Char) (a : TemplateArgument) :
    Except TemplateFault (List Char) :=
  match letter with
  | 's' => .ok (p.writeText a.toText)
  | 'r' => .ok (p.writeText a.describe)
  | 'c' => a.character?.map p.align
  | 'd' | 'i' | 'u' => a.integer?.map (p.writeNumber 10 [])
  | 'o' => a.integer?.map (p.writeNumber 8 ['0', 'o'])
  | 'x' => a.integer?.map (p.writeNumber 16 ['0', 'x'])
  | 'X' => a.integer?.map fun n => (p.writeNumber 16 ['0', 'x'] n).map Char.toUpper
  | _ => .error .malformed

end Place

def fillWithin : (fuel : Nat) → List Char → List TemplateArgument → Except TemplateFault (List Char)
  | 0, _, args => if args.isEmpty then .ok [] else .error .mismatch
  | fuel + 1, cs, args =>
    match cs with
    | [] => if args.isEmpty then .ok [] else .error .mismatch
    | '%' :: '%' :: rest => ('%' :: ·) <$> fillWithin fuel rest args
    | '%' :: rest =>
      match Place.take rest with
      | (_, []) => .error .malformed
      | (p, letter :: rest) =>
        match args with
        | [] => .error .mismatch
        | a :: args => do return (← p.write letter a) ++ (← fillWithin fuel rest args)
    | c :: rest => (c :: ·) <$> fillWithin fuel rest args

def fill (template : String) (args : List TemplateArgument) : Except TemplateFault String :=
  (fillWithin template.length template.toList args).map String.ofList

end Formula.Text
