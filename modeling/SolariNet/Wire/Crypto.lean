/-
# Node ids, CRC-32 and SHA-256

The hash that node ids are made of, the checksum of the frame trailer and the digest of the
report receipt, as `solariCrypto.c` computes them.  Nothing in the development depends on what
these functions return, only on their being functions; they are written out so that the frame
codec and the receipt of a report can be evaluated.
-/
import SolariNet.Wire.Basic

namespace SolariNet

def solariFnv1a64 (data : Bytes) : UInt64 :=
  data.foldl (fun h b => (h ^^^ b.toUInt64) * 1099511628211) 14695981039346656037

/-! ## CRC-32 -/

/-- One bit of the table construction, for the reflected IEEE polynomial. -/
def crc32Bit (c : UInt32) : UInt32 :=
  if c &&& 1 = 1 then (0xEDB88320 : UInt32) ^^^ (c >>> 1) else c >>> 1

def crcTable (i : UInt32) : UInt32 := Nat.iterate crc32Bit 8 i

def solariCrc32 (seed : UInt32) (data : Bytes) : UInt32 :=
  data.foldl (fun crc b => crcTable ((crc ^^^ b.toUInt32) &&& 0xFF) ^^^ (crc >>> 8))
    (seed ^^^ 0xFFFFFFFF) ^^^ 0xFFFFFFFF

/-! ## SHA-256 -/

def rotr32 (x n : UInt32) : UInt32 := (x >>> n) ||| (x <<< (32 - n))

def kSha256 : List UInt32 :=
  [0x428a2f98, 0x71374491, 0xb5c0fbcf, 0xe9b5dba5, 0x3956c25b, 0x59f111f1, 0x923f82a4, 0xab1c5ed5,
   0xd807aa98, 0x12835b01, 0x243185be, 0x550c7dc3, 0x72be5d74, 0x80deb1fe, 0x9bdc06a7, 0xc19bf174,
   0xe49b69c1, 0xefbe4786, 0x0fc19dc6, 0x240ca1cc, 0x2de92c6f, 0x4a7484aa, 0x5cb0a9dc, 0x76f988da,
   0x983e5152, 0xa831c66d, 0xb00327c8, 0xbf597fc7, 0xc6e00bf3, 0xd5a79147, 0x06ca6351, 0x14292967,
   0x27b70a85, 0x2e1b2138, 0x4d2c6dfc, 0x53380d13, 0x650a7354, 0x766a0abb, 0x81c2c92e, 0x92722c85,
   0xa2bfe8a1, 0xa81a664b, 0xc24b8b70, 0xc76c51a3, 0xd192e819, 0xd6990624, 0xf40e3585, 0x106aa070,
   0x19a4c116, 0x1e376c08, 0x2748774c, 0x34b0bcb5, 0x391c0cb3, 0x4ed8aa4a, 0x5b9cca4f, 0x682e6ff3,
   0x748f82ee, 0x78a5636f, 0x84c87814, 0x8cc70208, 0x90befffa, 0xa4506ceb, 0xbef9a3f7, 0xc67178f2]

structure Sha256State where
  a : UInt32
  b : UInt32
  c : UInt32
  d : UInt32
  e : UInt32
  f : UInt32
  g : UInt32
  h : UInt32

def sha256Extend (ws : List UInt32) : List UInt32 :=
  let w15 := ws.getD 14 0
  let w2 := ws.getD 1 0
  let s0 := rotr32 w15 7 ^^^ rotr32 w15 18 ^^^ (w15 >>> 3)
  let s1 := rotr32 w2 17 ^^^ rotr32 w2 19 ^^^ (w2 >>> 10)
  (ws.getD 15 0 + s0 + ws.getD 6 0 + s1) :: ws

def sha256Schedule (p : Bytes) : List UInt32 :=
  (Nat.iterate sha256Extend 48 ((List.range 16).map fun i =>
    solariGetU32 p (4 * i)).reverse).reverse

def sha256Round (s : Sha256State) (kw : UInt32 × UInt32) : Sha256State :=
  let s1 := rotr32 s.e 6 ^^^ rotr32 s.e 11 ^^^ rotr32 s.e 25
  let ch := (s.e &&& s.f) ^^^ (~~~ s.e &&& s.g)
  let t1 := s.h + s1 + ch + kw.1 + kw.2
  let s0 := rotr32 s.a 2 ^^^ rotr32 s.a 13 ^^^ rotr32 s.a 22
  let maj := (s.a &&& s.b) ^^^ (s.a &&& s.c) ^^^ (s.b &&& s.c)
  { a := t1 + (s0 + maj), b := s.a, c := s.b, d := s.c, e := s.d + t1, f := s.e,
    g := s.f, h := s.g }

def sha256Block (s : Sha256State) (p : Bytes) : Sha256State :=
  let r := (kSha256.zip (sha256Schedule p)).foldl sha256Round s
  { a := s.a + r.a, b := s.b + r.b, c := s.c + r.c, d := s.d + r.d,
    e := s.e + r.e, f := s.f + r.f, g := s.g + r.g, h := s.h + r.h }

structure Sha256Ctx where
  state : Sha256State
  bitLen : UInt64
  buf : Bytes

def solariSha256Init : Sha256Ctx :=
  { state := { a := 0x6a09e667, b := 0xbb67ae85, c := 0x3c6ef372, d := 0xa54ff53a,
               e := 0x510e527f, f := 0x9b05688c, g := 0x1f83d9ab, h := 0x5be0cd19 },
    bitLen := 0, buf := [] }

def sha256Push (c : Sha256Ctx) (x : UInt8) : Sha256Ctx :=
  let buf := c.buf ++ [x]
  if buf.length = 64 then { c with state := sha256Block c.state buf, buf := [] }
  else { c with buf := buf }

def solariSha256Update (c : Sha256Ctx) (data : Bytes) : Sha256Ctx :=
  data.foldl sha256Push { c with bitLen := c.bitLen + UInt64.ofNat data.length * 8 }

def solariSha256Final (c : Sha256Ctx) : Bytes :=
  let c1 := { c with buf := c.buf ++ [0x80] }
  let c2 := if 56 < c1.buf.length then
      { c1 with
        state := sha256Block c1.state (c1.buf ++ List.replicate (64 - c1.buf.length) 0), buf := [] }
    else c1
  let block := c2.buf ++ List.replicate (56 - c2.buf.length) 0 ++ solariPutU64 c.bitLen
  let s := sha256Block c2.state block
  [s.a, s.b, s.c, s.d, s.e, s.f, s.g, s.h].flatMap solariPutU32

def solariSha256 (data : Bytes) : Bytes :=
  solariSha256Final (solariSha256Update solariSha256Init data)

end SolariNet
