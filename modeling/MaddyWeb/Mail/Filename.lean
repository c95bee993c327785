import MaddyWeb.Library.Percent
import MaddyWeb.Library.Runs
import MaddyWeb.Library.Utf8

/-!
# Names of attachments

A text of the source may hold any code point, a surrogate too.  `unicodedata.normalize` is the
parameter `Normalizer`: what is used of NFC is that it keeps the canonical decomposition up to the
order of its marks, and ASCII.
-/

namespace MaddyWeb.Mail.Filename

open MaddyWeb.Library MaddyWeb.Library.Text

abbrev CodePoint : Type := Fin 0x110000

abbrev Text : Type := List CodePoint

theorem toNat_lt (c : Char) : c.toNat < 0x110000 := by
  have hvalid : c.toNat < 0xD800 ∨ 0xDFFF < c.toNat ∧ c.toNat < 0x110000 := c.valid
  omega

def ofChar (c : Char) : CodePoint := ⟨c.toNat, toNat_lt c⟩

def ofString (text : String) : Text := text.toList.map ofChar

/-- The characters of a text, `none` if there is a surrogate. -/
def toChars (text : Text) : Option (List Char) :=
  text.mapM fun c => if h : c.val.isValidChar then some (Char.ofNatAux c.val h) else none

/-- `unicodedata.normalize("NFC", text)` -/
structure Normalizer where
  nfc : Text → Text
  /-- The full canonical decomposition. -/
  decomposition : CodePoint → Text
  decomposition_ne_nil : ∀ c, decomposition c ≠ []
  equivalent : ∀ text, ((nfc text).flatMap decomposition).Perm (text.flatMap decomposition)
  nfc_ascii : ∀ text, (∀ c ∈ text, c.val < 0x80) → nfc text = text

/-! ## Classes of code points -/

/-- `str.isspace` of one code point -/
def isBlank (c : CodePoint) : Bool :=
  let n := c.val
  (9 ≤ n && n ≤ 13) || (0x1C ≤ n && n ≤ 0x20) || n == 0x85 || n == 0xA0 || n == 0x1680 ||
    (0x2000 ≤ n && n ≤ 0x200A) || n == 0x2028 || n == 0x2029 || n == 0x202F || n == 0x205F ||
    n == 0x3000

def isDot (c : CodePoint) : Bool := c.val == 0x2E

def isBackslash (c : CodePoint) : Bool := c.val == 0x5C

def isSlash (c : CodePoint) : Bool := c.val == 0x2F

def isQuote (c : CodePoint) : Bool := c.val == 0x22

/-- `_CONTROL_RE` -/
def isControl (c : CodePoint) : Bool := c.val ≤ 0x1F || c.val == 0x7F

/-- The category `Cc`. -/
def isControlCategory (c : CodePoint) : Bool := c.val ≤ 0x1F || (0x7F ≤ c.val && c.val ≤ 0x9F)

/-- The category `Cs`. -/
def isSurrogate (c : CodePoint) : Bool := 0xD800 ≤ c.val && c.val ≤ 0xDFFF

/-- The category `Cf`. -/
def isFormat (c : CodePoint) : Bool :=
  [(0xAD, 0xAD), (0x600, 0x605), (0x61C, 0x61C), (0x6DD, 0x6DD), (0x70F, 0x70F), (0x890, 0x891),
    (0x8E2, 0x8E2), (0x180E, 0x180E), (0x200B, 0x200F), (0x202A, 0x202E), (0x2060, 0x2064),
    (0x2066, 0x206F), (0xFEFF, 0xFEFF), (0xFFF9, 0xFFFB), (0x110BD, 0x110BD), (0x110CD, 0x110CD),
    (0x13430, 0x1343F), (0x1BCA0, 0x1BCA3), (0x1D173, 0x1D17A), (0xE0001, 0xE0001),
    (0xE0020, 0xE007F)].any fun (first, last) => first ≤ c.val && c.val ≤ last

/-- `unicodedata.category(character) in _UNSAFE_FILENAME_CATEGORIES` -/
def isUnsafe (c : CodePoint) : Bool :=
  isControlCategory c || isFormat c || isSurrogate c || c.val == 0x2028 || c.val == 0x2029

/-! ## `safe_filename` -/

/-- `text.replace("\\", "/").rsplit("/", 1)[-1]` -/
def lastComponent (text : Text) : Text :=
  ((text.map fun c => if isBackslash c then ofChar '/' else c).reverse.takeWhile
    fun c => !isSlash c).reverse

/-- The name between the choice of the component and the default. -/
def clean (name : Text) : Text :=
  stripBy isDot (stripBy isBlank ((stripBy isDot (stripBy isBlank name)).filter (!isUnsafe ·)))

def maxFilename : Nat := 180

def defaultFilename : Text := ofString "attachment.bin"

/-- The last component of the normalized text, without its control characters. -/
def component (normalizer : Normalizer) (value : Text) : Text :=
  (lastComponent (normalizer.nfc value)).filter (!isControl ·)

/-- `safe_filename` -/
def safeFilename (normalizer : Normalizer) (value : Option Text) (default : Text) : Text :=
  match value with
  | none => default
  | some value =>
    if value = [] then default
    else
      let name := clean (component normalizer value)
      if name = [] || [ofString ".", ofString ".."].contains name then default
      else name.take maxFilename

/-! ## `attachment_download_headers` -/

/-- `filename.encode("ascii", "ignore").decode("ascii")` -/
def asciiOnly (filename : Text) : List Char :=
  (filename.filter (·.val < 0x80)).map fun c => Char.ofNat c.val

/-- `ascii_name` -/
def asciiName (filename : Text) : List Char :=
  let ascii := asciiOnly filename
  let ascii := if ascii = [] then "attachment.bin".toList else ascii
  (ascii.filter (· != '"')).map fun c => if c = '\\' then '_' else c

/-- `quote(filename, safe="")`, which raises on a surrogate. -/
def quote (filename : Text) : Option (List Char) :=
  (toChars filename).map fun chars => Percent.encode (utf8 chars)

/-- The dictionary that `attachment_download_headers` returns. -/
def downloadHeaders (filename : Text) (encoded : List Char) : List (String × String) :=
  [("Content-Disposition", String.ofList ("attachment; filename=\"".toList ++ asciiName filename ++
      "\"; filename*=UTF-8''".toList ++ encoded)),
    ("Content-Type", "application/octet-stream"),
    ("X-Content-Type-Options", "nosniff"),
    ("Content-Security-Policy", "default-src 'none'; sandbox"),
    ("Cache-Control", "private, no-store")]

/-- `attachment_download_headers` -/
def attachmentDownloadHeaders (normalizer : Normalizer) (filename : Option Text) :
    Option (List (String × String)) :=
  let filename := safeFilename normalizer filename defaultFilename
  (quote filename).map (downloadHeaders filename)

/-- A normalizer for texts in which nothing decomposes. -/
def plainNormalizer : Normalizer where
  nfc := id
  decomposition c := [c]
  decomposition_ne_nil := fun _ => List.cons_ne_nil _ _
  equivalent _ := .refl _
  nfc_ascii _ _ := rfl

end MaddyWeb.Mail.Filename
