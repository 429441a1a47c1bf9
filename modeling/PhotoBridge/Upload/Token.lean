/-
Who may talk to the receiver: the token `ServeBootstrap` issues
(`serve_bootstrap.cpp`), the comparison that takes the same time for every
token of one length (`upload_page.cpp`), and the two places where a
request has to show it (`http_server.cpp`).
-/
import PhotoBridge.Status

namespace PhotoBridge.Upload

-- =============================================================== issuing

/-- `kBase64UrlAlphabet`. -/
def base64UrlAlphabet : Bytes :=
  text "ABCDEFGHIJKLMNOPQRSTUVWXYZabcdefghijklmnopqrstuvwxyz0123456789-_"

/-- `kBase64UrlAlphabet[value & 0x3f]`. -/
def base64UrlDigit (value : UInt32) : UInt8 :=
  base64UrlAlphabet.getD (value &&& 0x3f).toNat 0

/-- `while (bits >= 6)`: how many bits are left, and the characters. -/
def drainBits (buffer : UInt32) (bits : Nat) : Nat × Bytes :=
  if bits < 6 then (bits, [])
  else
    let rest := drainBits buffer (bits - 6)
    (rest.1, base64UrlDigit (buffer >>> UInt32.ofNat (bits - 6)) :: rest.2)
termination_by bits

/-- The loop of `EncodeBase64Url` over the bytes, and the bits it leaves. -/
def encodeFrom (buffer : UInt32) (bits : Nat) : Bytes → Bytes
  | [] =>
      if bits > 0 then [base64UrlDigit (buffer <<< UInt32.ofNat (6 - bits))]
      else []
  | byte :: rest =>
      let buffer := (buffer <<< 8) ||| byte.toUInt32
      let drained := drainBits buffer (bits + 8)
      drained.2 ++ encodeFrom buffer drained.1 rest

/-- `EncodeBase64Url`. -/
def encodeBase64Url (bytes : Bytes) : Bytes := encodeFrom 0 0 bytes

/-- `GenerateToken`, with what `std::random_device` gave it. -/
def generateToken (random : Fin 32 → UInt8) : Bytes :=
  encodeBase64Url (List.ofFn random)

-- ============================================================= comparing

/-- `provided[index]`, or zero behind the end. -/
def byteOrZero (value : Bytes) (index : Nat) : UInt8 :=
  if h : index < value.length then value[index] else 0

/-- `ConstantTimeTokenEquals`. -/
def constantTimeTokenEquals (provided expected : Bytes) : Bool :=
  let length :=
    if provided.length > expected.length then provided.length
    else expected.length
  -- `static_cast<unsigned char>` keeps eight bits of the difference
  let difference := UInt8.ofNat (provided.length ^^^ expected.length)
  let difference := (List.range length).foldl (fun difference index =>
    difference ||| (byteOrZero provided index ^^^ byteOrZero expected index))
    difference
  difference == 0

-- =============================================================== showing

/-- `prefix` of `api_authorized`. -/
def bearer : Bytes := text "Bearer "

/-- `api_authorized`, given the value of the `Authorization` header (none
reads as the empty string). -/
def apiAuthorized (authorization token : Bytes) : Bool :=
  decide (authorization.length > bearer.length)
    && authorization.take bearer.length == bearer
    && constantTimeTokenEquals (authorization.drop bearer.length) token

/-- Whether `GET /` serves the page: `t` among the query's parameters. -/
def pageAuthorized (params : List (Bytes × Bytes)) (token : Bytes) : Bool :=
  match params.lookup (text "t") with
  | none => false
  | some value => constantTimeTokenEquals value token

end PhotoBridge.Upload
