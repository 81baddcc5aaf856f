/-
The update manifest and its signature (`_samsungTVUpdater.py`, `_version`, `_signedPayload`,
`_verifySignature`, and the tests of `_checkWorker` and `_downloadWorker`).

A manifest is any JSON value.  What the updater takes from Python and from NVDA without looking into
it (`json.loads`, `int` of a string, `hashlib.sha256`, reading an add-on bundle, ...) are the fields
of `Library`; nothing is assumed of them.
-/
import SamsungTVVoices.Driver.Speech
import Mathlib.Data.List.Sort

open FixedDigits
open SamsungTVVoices.Driver (CodePoint PyString strip)

namespace SamsungTVVoices.Updater

/-! ### JSON values -/

/-- A value that `json.loads` returns. -/
inductive Json where
  | null
  | bool (b : Bool)
  | int (n : ℤ)
  /-- A `float`, by what `float.__repr__` writes for it. -/
  | float (repr : Bytes)
  | str (s : PyString)
  | arr (items : List Json)
  /-- A `dict`, in its own order. -/
  | obj (fields : List (PyString × Json))

/-- A string of the source. -/
def pyString (s : String) : PyString := s.toList.map fun c => Fin.ofNat _ c.toNat

/-- A character of a string, as `json.dumps` writes it with `ensure_ascii`. -/
def escapePoint (c : CodePoint) : Bytes :=
  if c.val = 0x22 then utf8 "\\\""
  else if c.val = 0x5C then utf8 "\\\\"
  else if c.val = 0x0A then utf8 "\\n"
  else if c.val = 0x0D then utf8 "\\r"
  else if c.val = 0x09 then utf8 "\\t"
  else if c.val = 0x0C then utf8 "\\f"
  else if c.val = 0x08 then utf8 "\\b"
  else if 0x20 ≤ c.val ∧ c.val ≤ 0x7E then [UInt8.ofNat c.val]
  else if c.val < 0x10000 then utf8 "\\u" ++ hexField 4 c.val
  else
    -- a surrogate pair
    utf8 "\\u" ++ hexField 4 (0xD800 + (c.val - 0x10000) / 0x400) ++
      utf8 "\\u" ++ hexField 4 (0xDC00 + (c.val - 0x10000) % 0x400)

/-- A string, as `json.dumps` writes it. -/
def dumpsString (s : PyString) : Bytes := utf8 "\"" ++ s.flatMap escapePoint ++ utf8 "\""

/-- The parts of an array or an object, with commas between them. -/
def joinComma (parts : List Bytes) : Bytes := (parts.intersperse (utf8 ",")).flatten

/-- The fields of an object in the order of their keys. -/
def sortFields (fields : List (PyString × Bytes)) : List (PyString × Bytes) :=
  fields.insertionSort fun a b => a.1 ≤ b.1

mutual

/-- `json.dumps(value, sort_keys=True, separators=(",", ":"), ensure_ascii=True)` -/
def dumps : Json → Bytes
  | .null => utf8 "null"
  | .bool true => utf8 "true"
  | .bool false => utf8 "false"
  | .int n => utf8 (toString n)
  | .float repr => repr
  | .str s => dumpsString s
  | .arr items => utf8 "[" ++ joinComma (dumpsItems items) ++ utf8 "]"
  | .obj fields => utf8 "\x7b" ++ joinComma ((sortFields (dumpsFields fields)).map fun f =>
      dumpsString f.1 ++ utf8 ":" ++ f.2) ++ utf8 "\x7d"

def dumpsItems : List Json → List Bytes
  | [] => []
  | item :: items => dumps item :: dumpsItems items

def dumpsFields : List (PyString × Json) → List (PyString × Bytes)
  | [] => []
  | (key, value) :: fields => (key, dumps value) :: dumpsFields fields

end

/-- `info[key]`; none is an exception, `info` being no `dict` or having no such key. -/
def Json.get? (info : Json) (key : String) : Option Json :=
  match info with
  | .obj fields => fields.lookup (pyString key)
  | _ => none

/-- `_signedPayload` -/
def signedPayload : Json → Option Bytes
  | .obj fields => some (dumps (.obj (fields.filter (·.1 ≠ pyString "signature"))))
  | _ => none

/-! ### What the updater relies on -/

/-- What the updater reads of the manifest of an add-on bundle. -/
structure Bundle where
  name : PyString
  version : PyString
deriving DecidableEq, Repr

/-- Functions of Python's library and of NVDA. -/
structure Library where
  /-- `json.loads` of the UTF-8 text in the bytes; none is an exception. -/
  loads : Bytes → Option Json
  /-- `str` of a value that is not a string. -/
  repr : Json → PyString
  /-- `int` of a string; none is a `ValueError`. -/
  parseInt : PyString → Option ℤ
  /-- `int` of a `float`. -/
  truncate : Bytes → Option ℤ
  casefold : PyString → PyString
  /-- `base64.b64decode` of a string; none is an exception. -/
  b64decode : PyString → Option Bytes
  sha256 : Bytes → Bytes
  /-- `addonHandler.AddonBundle` of a file with this content; none is an exception. -/
  openBundle : Bytes → Option Bundle

namespace Library

variable (lib : Library)

/-- `str(value)` -/
def str : Json → PyString
  | .str s => s
  | value => lib.repr value

/-- `int(value)`; none is an exception. -/
def int : Json → Option ℤ
  | .int n => some n
  | .bool b => some b.toNat
  | .float repr => lib.truncate repr
  | .str s => lib.parseInt s
  | .null | .arr _ | .obj _ => none

/-- The loop of `_version`: the numbers up to the first part that is none. -/
def numbers : List PyString → List ℤ
  | [] => []
  | part :: parts =>
      match lib.parseInt part with
      | none => []
      | some n => n :: numbers parts

/-- `_version` of `str(value)` -/
def version (text : PyString) : List ℤ :=
  let stripped := (strip text).dropWhile fun c => c.val == 0x76 || c.val == 0x56
  let parts := lib.numbers (stripped.splitOn 0x2E)
  if parts = [] then [0] else parts

/-- The digits of `hexdigest()`. -/
def hexdigest (bs : Bytes) : PyString :=
  (lib.sha256 bs).flatMap fun b => (hexField 2 b.toNat).map fun c => Fin.ofNat _ c.toNat

end Library

/-! ### The signature -/

/-- An RSA key; the one of the source is in `PUBLIC_MODULUS` and `PUBLIC_EXPONENT`. -/
structure PublicKey where
  modulus : ℕ
  exponent : ℕ

namespace PublicKey

/-- `(n.bit_length() + 7) // 8` -/
def length (key : PublicKey) : ℕ := (key.modulus.size + 7) / 8

/-- `pow(s, e, n).to_bytes(length, "big")` -/
def encoded (key : PublicKey) (s : ℕ) : Bytes :=
  (leBytes key.length (s ^ key.exponent % key.modulus)).reverse

end PublicKey

/-- `SHA256_DIGEST_INFO` -/
def sha256DigestInfo : Bytes :=
  [0x30, 0x31, 0x30, 0x0D, 0x06, 0x09, 0x60, 0x86, 0x48, 0x01, 0x65, 0x03, 0x04, 0x02, 0x01, 0x05,
    0x00, 0x04, 0x20]

/-- The PKCS#1 v1.5 encoding of the SHA-256 of a payload, as `_verifySignature` expects it. -/
def expectedEncoding (lib : Library) (length : ℕ) (payload : Bytes) : Bytes :=
  let digestInfo := sha256DigestInfo ++ lib.sha256 payload
  [0x00, 0x01] ++ List.replicate (length - digestInfo.length - 3) 0xFF ++ [0x00] ++ digestInfo

/-- `base64.b64decode(info["signature"], validate=True)`, if it has the length of the modulus. -/
def signatureOf (lib : Library) (key : PublicKey) (info : Json) : Option Bytes :=
  match info.get? "signature" with
  | some (.str s) => (lib.b64decode s).filter fun signature => signature.length = key.length
  | _ => none

/-- The number that a signature stands for. -/
def signatureValue (signature : Bytes) : ℕ := ofLeBytes signature.reverse

/-- `_verifySignature` returns: it raises no exception. -/
def verifySignature (lib : Library) (key : PublicKey) (info : Json) : Bool :=
  match signatureOf lib key info, signedPayload info with
  | some signature, some payload =>
      key.encoded (signatureValue signature) == expectedEncoding lib key.length payload
  | _, _ => false

/-! ### The two tests -/

/-- What `_checkWorker` offers: it asks for the version that is installed when it compares. -/
def checkManifest (lib : Library) (key : PublicKey) (response : Bytes) (installed : PyString) :
    Option Json :=
  match lib.loads (response.take (128 * 1024)) with
  | none => none
  | some info =>
      if verifySignature lib key info then
        match info.get? "version", info.get? "url", info.get? "sha256", info.get? "size" with
        | some version, some _, some _, some _ =>
            if lib.version installed < lib.version (lib.str version) then some info else none
        | _, _, _, _ => none
      else none

/-- The bundle that `_downloadWorker` accepts, by what it has counted and hashed and by the file. -/
def checkFile (lib : Library) (info : Json) (total : ℕ) (hashed content : Bytes) : Option Bundle :=
  match info.get? "size", info.get? "sha256", info.get? "version" with
  | some size, some sha256, some version =>
      if lib.int size = some (total : ℤ) ∧
          lib.casefold (lib.hexdigest hashed) = lib.casefold (lib.str sha256) then
        match lib.openBundle content with
        | none => none
        | some bundle =>
            if bundle.name = pyString "samsungTVVoices" ∧
                lib.version bundle.version = lib.version (lib.str version) then some bundle
            else none
      else none
  | _, _, _ => none

end SamsungTVVoices.Updater
