import Lintel.Shell.Utility

/-!
# Filters

Utilities that print a part of their input, count it, or print it with changes.
-/

namespace Lintel.Shell

open Text (Bytes)

/-! ## Parts of the input -/

/-- How much of the input is wanted. -/
inductive Amount where
  | bytes (count : Nat)
  | lines (count : Nat)
  deriving DecidableEq, Repr

/-- The number in an amount, and the factor that its letter stands for. -/
def sized (text : String) : Nat :=
  let cs := text.toList.dropWhile fun c => c == '+' || c == '-'
  let (value, rest) := digitsIn 10 decimal? cs.length 0 cs
  match rest with
  | ['k'] | ['K'] => value * 1024
  | ['M'] => value * 1024 * 1024
  | ['b'] => value * 512
  | _ => value

/-- The amount that options ask for. -/
def Amount.ofOptions (options : Options) : Amount :=
  match options.value? 'c', options.value? 'n' with
  | some count, _ => .bytes (sized count)
  | none, some count => .lines (sized count)
  | none, none => .lines 10

/-- A number right after the dash stands for a number of lines. -/
def plainAmount (arguments : List String) : List String := arguments.flatMap fun a =>
  match a.toList with
  | '-' :: c :: cs => if (c :: cs).all Char.isDigit then ["-n", String.ofList (c :: cs)] else [a]
  | _ => [a]

/-- A utility for parts of its input; several operands get headings. -/
def partUtility (part : Options → Amount → Flow → Option Flow) : Utility :=
  fun view input arguments =>
    let options := Options.read ['c', 'n'] (plainAmount arguments)
    let names := if options.operands.isEmpty then ["-"] else options.operands
    let complain := fun name (refusal : FileRefusal) =>
      s!"cannot open '{name}' for reading: " ++ refusal.words
    let (flows, complaints) := sources view input complain names
    let status := if complaints.isEmpty then 0 else 1
    let parts := flows.mapM fun (name, flow) =>
      (part options (.ofOptions options) flow).map fun flow => (name, flow)
    match parts with
    | none => .never
    | some [(_, flow)] => { out := flow, complaints, status }
    | some parts =>
      let titled := parts.map fun (name, flow) => Flow.ofText s!"==> {name} <==\n" ++ flow
      let apart := titled.intersperse (Flow.ofText "\n")
      { out := apart.foldl (fun all flow => all ++ flow) {}, complaints, status }

/-- The first part of the input. -/
def headPart (options : Options) (amount : Amount) (flow : Flow) : Option Flow :=
  let fromEnd := ((options.value? 'c').orElse fun _ => options.value? 'n').any (·.startsWith "-")
  if fromEnd then
    if flow.isEndless then some flow
    else
      match amount with
      | .bytes count => some { bytes := flow.bytes.take (flow.bytes.length - count) }
      | .lines count =>
        let lines := Flow.linesOf flow.bytes
        some (.ofByteLines (lines.take (lines.length - count)))
  else
    match amount with
    | .bytes count => some { bytes := flow.take count }
    | .lines count => (flow.takeLines? count).map fun bytes => { bytes }

/-- The last part of the input. -/
def tailPart (options : Options) (amount : Amount) (flow : Flow) : Option Flow :=
  let fromStart := ((options.value? 'c').orElse fun _ => options.value? 'n').any (·.startsWith "+")
  match amount with
  | .bytes count =>
    if fromStart then some (flow.drop (count - 1))
    else if flow.isEndless then none
    else some { bytes := flow.bytes.drop (flow.bytes.length - count) }
  | .lines count =>
    if flow.isEndless then none
    else
      let total := (Flow.linesOf flow.bytes).length
      let skipped := if fromStart then count - 1 else total - count
      some { bytes := flow.bytes.drop (Flow.lineCut skipped 0 flow.bytes).1 }

/-- Prints the first part of its input. -/
def headUtility : Utility := partUtility headPart

/-- Prints the last part of its input. -/
def tailUtility : Utility := partUtility tailPart

/-! ## Changes of bytes -/

/-- The bytes of a class. -/
def classBytes (name : String) : Bytes :=
  let test : Char → Bool := match name with
    | "digit" => Char.isDigit
    | "lower" => Char.isLower
    | "upper" => Char.isUpper
    | "alpha" => Char.isAlpha
    | "alnum" => Char.isAlphanum
    | "space" => fun c => c == ' ' || (9 ≤ c.toNat && c.toNat ≤ 13)
    | "blank" => fun c => c == ' ' || c == '\t'
    | "punct" => fun c => 33 ≤ c.toNat && c.toNat ≤ 126 && !c.isAlphanum
    | "cntrl" => fun c => c.toNat < 32 || c.toNat == 127
    | "print" => fun c => 32 ≤ c.toNat && c.toNat ≤ 126
    | "graph" => fun c => 33 ≤ c.toNat && c.toNat ≤ 126
    | "xdigit" => fun c => (hex? c).isSome
    | _ => fun _ => false
  ((List.range 128).filter fun n => test (Char.ofNat n)).map UInt8.ofNat

/-- One byte of a set, as bytes, and the rest. -/
def setItem (cs : List Char) : Bytes × List Char :=
  match cs with
  | '\\' :: rest =>
    match escape? false rest with
    | some (byte, rest) => ([byte], rest)
    | none =>
      match rest with
      | c :: rest => (Text.encodeChar c, rest)
      | [] => ([92], [])
  | c :: rest => (Text.encodeChar c, rest)
  | [] => ([], [])

/-- The bytes of a set: single ones, ranges and classes. -/
def setBytes : Nat → List Char → Bytes
  | 0, _ => []
  | fuel + 1, cs =>
    match cs with
    | [] => []
    | '[' :: ':' :: rest =>
      let name := rest.takeWhile (· != ':')
      classBytes (String.ofList name) ++ setBytes fuel (rest.drop (name.length + 2))
    | _ =>
      let (first, rest) := setItem cs
      match first, rest with
      | [low], '-' :: c :: more =>
        let (last, rest) := setItem (c :: more)
        match last with
        | [high] =>
          let row := (List.range (high.toNat + 1 - low.toNat)).map fun i => UInt8.ofNat (low.toNat + i)
          row ++ setBytes fuel rest
        | _ => first ++ setBytes fuel rest
      | _, _ => first ++ setBytes fuel rest

/-- Bytes of `set` that follow one another and are the same become one. -/
def squeeze (set : Bytes) : Bytes → Bytes
  | first :: second :: rest =>
    if first == second && set.contains first then squeeze set (second :: rest)
    else first :: squeeze set (second :: rest)
  | bytes => bytes

/-- Every byte that is not in a set. -/
def otherBytes (set : Bytes) : Bytes :=
  ((List.range 256).map UInt8.ofNat).filter fun b => !set.contains b

/-- The table that takes the bytes of one set to those of another; the last one of the other set stands
for all that are missing. -/
def exchangeTable (first second : Bytes) : Array UInt8 :=
  let last := second.getLast?.getD 0
  let pairs := first.zip (second ++ List.replicate (first.length - second.length) last)
  let start := ((List.range 256).map UInt8.ofNat).toArray
  pairs.foldl (fun table (key, value) => table.setIfInBounds key.toNat value) start

/-- Changes or drops bytes of its input. -/
def trUtility : Utility := fun _ input arguments =>
  let options := Options.read [] arguments
  let sets := options.operands.map fun text => setBytes (text.length + 1) text.toList
  let first := sets.head?.getD []
  let chosen := if options.has 'c' || options.has 'C' then otherBytes first else first
  let second := sets[1]?
  match sets with
  | [] => missingOperand "tr"
  | _ =>
    let changed :=
      if options.has 'd' then input.map fun bytes => bytes.filter fun b => !chosen.contains b
      else
        match second with
        | none => input
        | some second =>
          let table := exchangeTable chosen second
          input.map fun bytes => bytes.map fun b => table.getD b.toNat b
    let squeezed :=
      if options.has 's' then changed.map (squeeze (second.getD chosen)) else changed
    if input.isEndless && !squeezed.isEndless then .never else { out := squeezed }

/-! ## Counting and sorting -/

/-- The number of words. -/
def wordCount (bytes : Bytes) : Nat :=
  let blank := fun (b : UInt8) => b == 32 || (9 ≤ b && b ≤ 13)
  let starts := (bytes.zip ((32 : UInt8) :: bytes)).filter fun (b, before) =>
    !blank b && blank before
  starts.length

/-- The text is brought to a width from the left. -/
def padLeft (width : Nat) (text : String) : String := "".pushn ' ' (width - text.length) ++ text

/-- The counts of bytes that options ask for. -/
def countsOf (options : Options) (bytes : Bytes) : List Nat :=
  let every := !(['l', 'w', 'c', 'm'].any options.has)
  let entry := fun (wanted : Bool) (count : Unit → Nat) => if wanted then [count ()] else []
  entry (every || options.has 'l') (fun _ => bytes.count Flow.lineEnd)
    ++ entry (every || options.has 'w') (fun _ => wordCount bytes)
    ++ entry (options.has 'm') (fun _ => (Text.decodeLossy bytes).length)
    ++ entry (every || options.has 'c') (fun _ => bytes.length)

/-- Counts lines, words and bytes. -/
def wcUtility : Utility := fun view input arguments =>
  let options := Options.read [] arguments
  let names := options.operands
  let (flows, complaints) := sources view input refusedName (if names.isEmpty then ["-"] else names)
  if flows.any fun (_, flow) => flow.isEndless then .never
  else
    let rows := flows.map fun (name, flow) => (name, countsOf options flow.bytes)
    let total := rows.foldl (fun sums (_, counts) =>
      if sums.isEmpty then counts else sums.zipWith (· + ·) counts) []
    let rows := if rows.length > 1 then rows ++ [("total", total)] else rows
    let size := flows.foldl (fun n (_, flow) => n + flow.bytes.length) 0
    let width :=
      if rows.length == 1 && total.length == 1 then 1
      else if names.isEmpty && !input.stored then 7
      else (toString size).length
    let lines := rows.map fun (name, counts) =>
      let line := " ".intercalate (counts.map fun n => padLeft width (toString n))
      if names.isEmpty then line else line ++ " " ++ name
    { out := .ofLines lines, complaints, status := if complaints.isEmpty then 0 else 1 }

/-- The first bytes do not come after the second. -/
def bytesLe : Bytes → Bytes → Bool
  | [], _ => true
  | _ :: _, [] => false
  | a :: as, b :: bs => a < b || (a == b && bytesLe as bs)

/-- The number at the start of a line. -/
def leadingNumber (line : Bytes) : Int :=
  let cs := (Text.decodeLossy line).dropWhile fun c => c == ' ' || c == '\t'
  let digits := cs.takeWhile fun c => c.isDigit || c == '-'
  (numberOf (String.ofList digits)).1

/-- Sorts the lines of its input. -/
def sortLines : Utility := ofWhole ['k', 't', 'o'] fun options bytes =>
  let lines := Flow.linesOf bytes
  let le := fun (a b : Bytes) =>
    if options.has 'n' then
      leadingNumber a < leadingNumber b || (leadingNumber a == leadingNumber b && bytesLe a b)
    else bytesLe a b
  let sorted := lines.mergeSort fun a b => if options.has 'r' then le b a else le a b
  .ofByteLines (if options.has 'u' then sorted.eraseReps else sorted)

/-- Sorts the lines of its input, all of which has to be there. -/
def sortUtility : Utility := fun view input arguments =>
  let done := sortLines view input arguments
  if done.complaints.isEmpty then done
  else { complaints := (done.complaints.take 1).map ("cannot read: " ++ ·), status := 2 }

/-- Rows of lines that are the same. -/
def sameLines : List Bytes → List (Bytes × Nat)
  | [] => []
  | line :: lines =>
    match sameLines lines with
    | (other, count) :: rest =>
      if line == other then (other, count + 1) :: rest else (line, 1) :: (other, count) :: rest
    | [] => [(line, 1)]

/-- Prints lines that are the same only once. -/
def uniqUtility : Utility := ofWhole [] fun options bytes =>
  let rows := (sameLines (Flow.linesOf bytes)).filter fun (_, count) =>
    (!options.has 'd' || count > 1) && (!options.has 'u' || count == 1)
  .ofByteLines (rows.map fun (line, count) =>
    if options.has 'c' then Text.encode (padLeft 7 (toString count) ++ " ") ++ line else line)

/-- The ranges in a list such as `1,3-5`. -/
def rangesIn (text : String) : List (Nat × Option Nat) :=
  (text.splitOn ",").map fun item =>
    match item.splitOn "-" with
    | [low, high] => (low.toNat?.getD 1, high.toNat?)
    | _ => (item.toNat?.getD 1, item.toNat?)

/-- The elements at the places of some ranges, counted from one. -/
def select {α : Type} (ranges : List (Nat × Option Nat)) (elements : List α) : List α :=
  (elements.zipIdx 1).filterMap fun (element, place) =>
    if ranges.any fun (low, high) => low ≤ place && high.all (place ≤ ·) then some element else none

/-- Prints parts of the lines of its input. -/
def cutUtility : Utility := ofWhole ['c', 'b', 'd', 'f'] fun options bytes =>
  let delimiter := ((options.value? 'd').bind fun d => (Text.encode d).head?).getD 9
  .ofByteLines ((Flow.linesOf bytes).map fun line =>
    match (options.value? 'c').orElse fun _ => options.value? 'b', options.value? 'f' with
    | some ranges, _ => select (rangesIn ranges) line
    | none, some ranges =>
      if line.contains delimiter then
        (select (rangesIn ranges) (line.splitOn delimiter)).intersperse [delimiter] |>.flatten
      else line
    | none, none => line)

/-- The second bytes stand somewhere in the first. -/
def hasInfix (line part : Bytes) : Bool :=
  part.isPrefixOf line || match line with
    | [] => false
    | _ :: rest => hasInfix rest part

/-- Small letters of ASCII for large ones. -/
def smallBytes (bytes : Bytes) : Bytes :=
  bytes.map fun b => if 65 ≤ b && b ≤ 90 then b + 32 else b

/-- A line has a text in it; a mark at an end of the text ties it to that end of the line. -/
def lineMatches (text : Bytes) (line : Bytes) : Bool :=
  let fromStart := text.head? == some 94
  let toEnd := text.getLast? == some 36
  let body := if fromStart then text.drop 1 else text
  let body := if toEnd then body.dropLast else body
  match fromStart, toEnd with
  | true, true => line == body
  | true, false => body.isPrefixOf line
  | false, true => body.isSuffixOf line
  | false, false => hasInfix line body

/-- Prints the lines that have a text in them. -/
def grepUtility : Utility := fun view input arguments =>
  let options := Options.read ['e'] arguments
  let (text, names) := match options.value? 'e', options.operands with
    | some text, names => (text, names)
    | none, text :: names => (text, names)
    | none, [] => ("", [])
  let (flow, complaints) := allInput view input names
  if flow.isEndless then .never
  else
    let fold := fun (bytes : Bytes) => if options.has 'i' then smallBytes bytes else bytes
    let wanted := fold (Text.encode text)
    let hit := fun (line : Bytes) =>
      let line := fold line
      let found :=
        if options.has 'x' then line == wanted
        else if options.has 'F' then hasInfix line wanted
        else lineMatches wanted line
      found != options.has 'v'
    let found := ((Flow.linesOf flow.bytes).zipIdx 1).filter fun (line, _) => hit line
    let status := if !complaints.isEmpty then 2 else if found.isEmpty then 1 else 0
    let out : Flow :=
      if options.has 'q' then {}
      else if options.has 'c' then .ofLines [toString found.length]
      else .ofByteLines (found.map fun (line, place) =>
        if options.has 'n' then Text.encode (toString place ++ ":") ++ line else line)
    { out, complaints, status }

end Lintel.Shell
