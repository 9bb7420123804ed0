/-!
# UTF-8

Bytes as text. Decoding takes the bytes apart into encoded characters and, between them, the
longest pieces that begin an encoded character without completing it, or single bytes that begin
none. A text is well formed when there are no such pieces; a lenient reader shows a replacement
character for each of them.
-/

namespace TreeBrowser.Text.Utf8

def isContinuation (b : UInt8) : Bool :=
  0x80 ≤ b && b ≤ 0xBF

def secondOfThree (first second : UInt8) : Bool :=
  if first = 0xE0 then 0xA0 ≤ second && second ≤ 0xBF
  else if first = 0xED then 0x80 ≤ second && second ≤ 0x9F
  else isContinuation second

def secondOfFour (first second : UInt8) : Bool :=
  if first = 0xF0 then 0x90 ≤ second && second ≤ 0xBF
  else if first = 0xF4 then 0x80 ≤ second && second ≤ 0x8F
  else isContinuation second

def payload (b : UInt8) : Nat :=
  b.toNat % 64

/-- A decoding in progress: what has been found, newest first, and the bytes of an unfinished
character, of which the first announces how many belong together. -/
inductive Pending where
  | none
  | twoLeft1 (first : UInt8)
  | threeLeft2 (first : UInt8)
  | threeLeft1 (first second : UInt8)
  | fourLeft3 (first : UInt8)
  | fourLeft2 (first second : UInt8)
  | fourLeft1 (first second third : UInt8)

def begin (found : List (Option Char)) (b : UInt8) : List (Option Char) × Pending :=
  if b < 0x80 then (some (Char.ofNat b.toNat) :: found, .none)
  else if 0xC2 ≤ b && b ≤ 0xDF then (found, .twoLeft1 b)
  else if 0xE0 ≤ b && b ≤ 0xEF then (found, .threeLeft2 b)
  else if 0xF0 ≤ b && b ≤ 0xF4 then (found, .fourLeft3 b)
  else (none :: found, .none)

/-- The decoding after one more byte. A byte that does not fit ends the unfinished character as a
malformed piece and begins anew. -/
def step : List (Option Char) × Pending → UInt8 → List (Option Char) × Pending
  | (found, .none), b => begin found b
  | (found, .twoLeft1 b0), b =>
    if isContinuation b then
      (some (Char.ofNat (b0.toNat % 32 * 64 + payload b)) :: found, .none)
    else begin (none :: found) b
  | (found, .threeLeft2 b0), b =>
    if secondOfThree b0 b then (found, .threeLeft1 b0 b) else begin (none :: found) b
  | (found, .threeLeft1 b0 b1), b =>
    if isContinuation b then
      (some (Char.ofNat ((b0.toNat % 16 * 64 + payload b1) * 64 + payload b)) :: found, .none)
    else begin (none :: found) b
  | (found, .fourLeft3 b0), b =>
    if secondOfFour b0 b then (found, .fourLeft2 b0 b) else begin (none :: found) b
  | (found, .fourLeft2 b0 b1), b =>
    if isContinuation b then (found, .fourLeft1 b0 b1 b) else begin (none :: found) b
  | (found, .fourLeft1 b0 b1 b2), b =>
    if isContinuation b then
      (some (Char.ofNat
        (((b0.toNat % 8 * 64 + payload b1) * 64 + payload b2) * 64 + payload b)) :: found, .none)
    else begin (none :: found) b

def finish : List (Option Char) × Pending → List (Option Char)
  | (found, .none) => found.reverse
  | (found, _) => (none :: found).reverse

def pieces (bytes : List UInt8) : List (Option Char) :=
  finish (bytes.foldl step ([], .none))

def decode? (bytes : List UInt8) : Option String :=
  ((pieces bytes).mapM fun piece => piece).map String.ofList

/-- The text of some bytes, with a replacement character for each malformed piece. -/
def decodeLossy (bytes : List UInt8) : String :=
  String.ofList ((pieces bytes).map fun piece => piece.getD '\uFFFD')

def encodeChar (c : Char) : List UInt8 :=
  let n := c.toNat
  if n < 0x80 then [UInt8.ofNat n]
  else if n < 0x800 then [UInt8.ofNat (0xC0 + n / 64), UInt8.ofNat (0x80 + n % 64)]
  else if n < 0x10000 then
    [UInt8.ofNat (0xE0 + n / 4096), UInt8.ofNat (0x80 + n / 64 % 64), UInt8.ofNat (0x80 + n % 64)]
  else
    [UInt8.ofNat (0xF0 + n / 262144), UInt8.ofNat (0x80 + n / 4096 % 64),
     UInt8.ofNat (0x80 + n / 64 % 64), UInt8.ofNat (0x80 + n % 64)]

def encode (text : String) : List UInt8 :=
  text.toList.flatMap encodeChar

end TreeBrowser.Text.Utf8
