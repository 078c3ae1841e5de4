import Persona.Text

/-!
# Keys of artifacts

An artifact is found by a sixty-four bit digest of everything that determines it.
Each part is followed by a zero byte, so that moving bytes from one part to the next
changes what is hashed. The digest that is used is XXH64 with seed zero; another one
may take its place.
-/

namespace Persona.Artifact

/-- The bytes that are hashed for a list of parts. -/
def framed (parts : List Text) : Text :=
  parts.flatMap fun part => part ++ [0]

namespace Digest

/-- The five odd multipliers of the digest. -/
def prime1 : UInt64 := 11400714785074694791

/-- The second multiplier. -/
def prime2 : UInt64 := 14029467366897019727

/-- The third multiplier. -/
def prime3 : UInt64 := 1609587929392839161

/-- The fourth multiplier. -/
def prime4 : UInt64 := 9650029242287828579

/-- The fifth multiplier. -/
def prime5 : UInt64 := 2870177450012600261

/-- Move the bits of a word to the left; those that leave come back on the right. -/
def rotate (word : UInt64) (places : UInt64) : UInt64 :=
  (word <<< places) ||| (word >>> (64 - places))

/-- The word spelled by bytes, the lowest byte first. -/
def word (bytes : Text) : UInt64 :=
  bytes.foldr (fun b rest => rest * 256 + b.toUInt64) 0

/-- Mix eight bytes into a lane. -/
def mix (lane input : UInt64) : UInt64 :=
  rotate (lane + input * prime2) 31 * prime1

/-- The four lanes that long inputs are spread over. -/
structure Lanes where
  first : UInt64
  second : UInt64
  third : UInt64
  fourth : UInt64

/-- The lanes before any input. -/
def Lanes.start : Lanes := ⟨prime1 + prime2, prime2, 0, 0 - prime1⟩

/-- Mix thirty-two bytes, eight into each lane. -/
def Lanes.absorb (lanes : Lanes) (stripe : Text) : Lanes :=
  ⟨mix lanes.first (word (stripe.take 8)), mix lanes.second (word ((stripe.drop 8).take 8)),
   mix lanes.third (word ((stripe.drop 16).take 8)),
   mix lanes.fourth (word ((stripe.drop 24).take 8))⟩

/-- Mix a number of stripes and return the bytes after them. -/
def absorbStripes : (stripes : Nat) → Lanes → Text → Lanes × Text
  | 0, lanes, text => (lanes, text)
  | stripes + 1, lanes, text =>
    absorbStripes stripes (lanes.absorb (text.take 32)) (text.drop 32)

/-- Fold one lane into a digest. -/
def fold (digest lane : UInt64) : UInt64 :=
  (digest ^^^ mix 0 lane) * prime1 + prime4

/-- The digest of four lanes. -/
def Lanes.merge (lanes : Lanes) : UInt64 :=
  let sum := rotate lanes.first 1 + rotate lanes.second 7 + rotate lanes.third 12 +
    rotate lanes.fourth 18
  fold (fold (fold (fold sum lanes.first) lanes.second) lanes.third) lanes.fourth

/-- Mix a number of eight-byte words and return the bytes after them. -/
def absorbWords : (words : Nat) → UInt64 → Text → UInt64 × Text
  | 0, digest, text => (digest, text)
  | words + 1, digest, text =>
    absorbWords words (rotate (digest ^^^ mix 0 (word (text.take 8))) 27 * prime1 + prime4)
      (text.drop 8)

/-- Mix four bytes if there are as many. -/
def absorbHalf (digest : UInt64) (text : Text) : UInt64 × Text :=
  if 4 ≤ text.length then
    (rotate (digest ^^^ word (text.take 4) * prime1) 23 * prime2 + prime3, text.drop 4)
  else (digest, text)

/-- Mix one byte. -/
def absorbByte (digest : UInt64) (b : UInt8) : UInt64 :=
  rotate (digest ^^^ b.toUInt64 * prime5) 11 * prime1

/-- Spread every bit over the whole word. -/
def avalanche (digest : UInt64) : UInt64 :=
  let second := (digest ^^^ (digest >>> 33)) * prime2
  let third := (second ^^^ (second >>> 29)) * prime3
  third ^^^ (third >>> 32)

/-- The digest of a text. -/
def ofText (text : Text) : UInt64 :=
  let (start, rest) :=
    if 32 ≤ text.length then
      let (lanes, rest) := absorbStripes (text.length / 32) .start text
      (lanes.merge, rest)
    else (prime5, text)
  let (words, rest) := absorbWords (rest.length / 8) (start + UInt64.ofNat text.length) rest
  let (half, rest) := absorbHalf words rest
  avalanche (rest.foldl absorbByte half)

end Digest

/-- The key of an artifact that is determined by these parts. -/
def key (parts : List Text) (digest : Text → UInt64 := Digest.ofText) :
    UInt64 := digest (framed parts)

end Persona.Artifact
