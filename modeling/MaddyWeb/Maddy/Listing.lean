import MaddyWeb.Library.Fallible
import MaddyWeb.Maddy.MessageList

/-!
# Full listings and what the parser makes of them

`render` prints a mailbox as Maddy does.  A header value is any text without CR
or LF, which still leaves `str.splitlines` eight characters to break it at, and
nothing keeps it from holding a marker.  `Harmless` says exactly which records
the parser reads back with their own meta-data.
-/

namespace MaddyWeb.Maddy.Listing

open MaddyWeb.Library MaddyWeb.Library.Text MaddyWeb.Library.Fallible
open MaddyWeb.Maddy.EncodedWord MaddyWeb.Maddy.MessageList

/-! ## Printed records -/

/-- A time as Go prints it: a Unix time and a text on one line. -/
structure Stamp where
  unix : Int
  human : Text
  unix_range : -(2 ^ 63) ≤ unix ∧ unix ≤ 2 ^ 63 - 1
  human_ne : human ≠ []
  one_line : ∀ c ∈ human, isLineBreak c = false
  first : ∀ c ∈ human.head?, isSpace c = false
  last : ∀ c ∈ human.getLast?, isSpace c = false
  no_dash_blank : hasSubstring ['-', ' '] human = false

abbrev Flag := { text : Text // text ≠ [] ∧ ∀ c ∈ text, isSpace c = false ∧ 0x20 ≤ c.toNat }

abbrev HeaderValue := { value : Text // '\r' ∉ value ∧ '\n' ∉ value }

abbrev Header := HeaderField × HeaderValue

structure Printed where
  uid : Int
  sequenceNumber : Int
  flags : List Flag
  bodySize : Int
  internalDate : Stamp
  /-- the headers printed before the date, and those after it -/
  before : List Header
  date : Option Stamp
  after : List Header
  uid_range : 1 ≤ uid ∧ uid ≤ maxImapUid
  sequenceNumber_range : 1 ≤ sequenceNumber ∧ sequenceNumber ≤ maxImapUid
  bodySize_range : 0 ≤ bodySize ∧ bodySize ≤ 2 ^ 63 - 1

def fieldName : HeaderField → String
  | .from => "From"
  | .to => "To"
  | .cc => "Cc"
  | .bcc => "Bcc"
  | .inReplyTo => "In-Reply-To"
  | .messageId => "Message-Id"
  | .subject => "Subject"

/-- A label and its value on one line. -/
def labelled (label : String) (value : Text) : Text := label.toList ++ ':' :: ' ' :: value

namespace Stamp

def text (stamp : Stamp) : Text := Decimal.decimal stamp.unix ++ ' ' :: stamp.human

def value (stamp : Stamp) : Int × Text := (stamp.unix, stamp.human)

end Stamp

namespace Printed

def flagsText (r : Printed) : Text :=
  '[' :: List.intercalate [' '] (r.flags.map Subtype.val) ++ [']']

/-- The lines of the meta-data part, without their line feeds. -/
def metadataLines (r : Printed) : List Text :=
  [ labelled "UID" (Decimal.decimal r.uid),
    labelled "Sequence number" (Decimal.decimal r.sequenceNumber),
    labelled "Flags" r.flagsText,
    labelled "Body size" (Decimal.decimal r.bodySize),
    labelled "Internal date" r.internalDate.text ]

end Printed

def headerLine (h : Header) : Text := labelled (fieldName h.1) h.2.val

def dateLine (stamp : Stamp) : Text := labelled "Date" stamp.text

namespace Printed

def envelopeLines (r : Printed) : List Text :=
  r.before.map headerLine ++ (r.date.map dateLine).toList ++ r.after.map headerLine

/-- What is printed for one message after its first marker. -/
def body (r : Printed) : Text :=
  unlines '\n' ([] :: r.metadataLines) ++
    (envelopeMarker ++ unlines '\n' ([] :: r.envelopeLines ++ [[]]))

end Printed

/-- The full listing of a mailbox. -/
def render (records : List Printed) : Text := records.flatMap fun r => metadataMarker ++ r.body

/-! ## What the parser has to give back -/

/-- A parsed record without its headers. -/
def metadata (record : MessageRecord) : MessageRecord := { record with headers := [] }

def Printed.metadata (r : Printed) : MessageRecord where
  uid := some r.uid
  sequenceNumber := some r.sequenceNumber
  flags := some (r.flags.map Subtype.val)
  bodySize := some r.bodySize
  internalDateUnix := some r.internalDate.unix
  internalDate := some r.internalDate.human
  dateUnix := r.date.map Stamp.unix
  date := r.date.map Stamp.human

/-- The listing is read back: one record a message, in order, with its own meta-data, and no
failure of the output contract is recorded. -/
def ReadBack (codecs : Codecs) (records : List Printed) : Prop :=
  ∃ parsed, listMessageSet codecs none (render records) = (.ok parsed, none) ∧
    parsed.map metadata = records.map Printed.metadata

/-! ## Which headers are harmless -/

/-- The lines that a header value opens after its first, at a separator that is no CR or LF. -/
def smuggledLines (value : Text) : List Text := (strSplitlines (value ++ ['\n'])).tail

/-- A line keyed `date`, as the pair it is read as. -/
def lineDate (line : Text) : Option (Except String (Int × Text)) :=
  match keyValue line with
  | some (key, value) =>
      if key = "date".toList then some (strictStamp value "envelope date") else none
  | none => none

/-- The envelope parser accepts the line. -/
def Readable (line : Text) : Prop :=
  ((strStrip line).isEmpty ∨ ':' ∈ line) ∧ ∀ outcome, lineDate line = some outcome → outcome.isOk

/-- The date after a further line of the envelope. -/
def dateAfter (date : Option (Int × Text)) (line : Text) : Option (Int × Text) :=
  match lineDate line with
  | some (.ok stamp) => some stamp
  | _ => date

def Printed.smuggled (headers : List Header) : List Text :=
  headers.flatMap fun h => smuggledLines h.2.val

/-- The date of a record when every line of its envelope is read: the lines smuggled before its
own date, that date, and the lines smuggled after it. -/
def Printed.lastDate (r : Printed) : Option (Int × Text) :=
  let early := (Printed.smuggled r.before).foldl dateAfter none
  (Printed.smuggled r.after).foldl dateAfter ((r.date.map Stamp.value).or early)

/-- No marker stands in a header or in the flags, every smuggled line is readable, and the last
date is the record's own. -/
structure Harmless (r : Printed) : Prop where
  headers_marker : ∀ h ∈ r.before ++ r.after, hasSubstring metadataMarker h.2.val = false
  flags_marker : hasSubstring metadataMarker r.flagsText = false
  flags_envelope : hasSubstring envelopeMarker r.flagsText = false
  readable : ∀ line ∈ Printed.smuggled (r.before ++ r.after), Readable line
  date : r.lastDate = r.date.map Stamp.value

/-! ## Scalars are read back -/

theorem isSpace_of_isDigit {c : Char} (hc : Decimal.isDigit c = true) : isSpace c = false := by
  simp only [Decimal.isDigit, Bool.and_eq_true, decide_eq_true_eq] at hc
  simp only [isSpace, Bool.or_eq_false_iff, Bool.and_eq_false_iff, decide_eq_false_iff_not,
    beq_eq_false_iff_ne]
  omega

theorem isSpace_of_mem_decimal {i : Int} {c : Char} (hc : c ∈ Decimal.decimal i) :
    isSpace c = false := by
  unfold Decimal.decimal at hc
  split at hc
  · rcases List.mem_cons.mp hc with rfl | hc
    · decide
    · exact isSpace_of_isDigit (Decimal.isDigit_of_mem_digits hc)
  · exact isSpace_of_isDigit (Decimal.isDigit_of_mem_digits hc)

theorem strStrip_decimal (i : Int) : strStrip (Decimal.decimal i) = Decimal.decimal i :=
  stripBy_of_no_blank fun _ hc => isSpace_of_mem_decimal hc

theorem strictOutputInteger_decimal {i minimum maximum : Int} (field : String)
    (hrange : minimum ≤ i ∧ i ≤ maximum) (hsize : i.natAbs < 10 ^ 20) :
    strictOutputInteger (Decimal.decimal i) field minimum maximum = .ok i := by
  have hlength : (Decimal.digits i.natAbs).length ≤ 20 :=
    Decimal.length_digits_le (by decide) hsize
  have hne := Decimal.digits_ne_nil i.natAbs
  have hall : (Decimal.digits i.natAbs).all Decimal.isDigit = true :=
    List.all_eq_true.mpr fun c hc => Decimal.isDigit_of_mem_digits hc
  have hvalue := Decimal.value_digits i.natAbs
  have hlong : ¬ 20 < (Decimal.digits i.natAbs).length := by omega
  have hhead : (Decimal.digits i.natAbs).head? ≠ some '-' := by
    intro h
    have hdigit := Decimal.isDigit_of_mem_digits (List.mem_of_mem_head? h)
    revert hdigit
    decide
  unfold strictOutputInteger
  rw [strStrip_decimal]
  unfold Decimal.decimal
  generalize habs : i.natAbs = n at hne hall hlong hvalue hhead ⊢
  by_cases hneg : i < 0
  · have hi : -(n : Int) = i := by omega
    simp [hneg, hne, hall, hlong, hvalue, hi, hrange]
  · have hi : (n : Int) = i := by omega
    simp [hneg, hne, hall, hlong, hvalue, hi, hrange, hhead]

theorem strStrip_flagsText (r : Printed) : strStrip r.flagsText = r.flagsText := by
  apply stripBy_eq_self
  · intro c hc
    cases hc
    decide
  · intro c hc
    rw [Printed.flagsText, List.getLast?_concat] at hc
    cases hc
    decide

theorem strictFlags_flagsText (r : Printed) :
    strictFlags r.flagsText = .ok (r.flags.map Subtype.val) := by
  have hinner : (r.flagsText.drop 1).dropLast =
      List.intercalate [' '] (r.flags.map Subtype.val) := by
    rw [Printed.flagsText, List.cons_append, List.drop_succ_cons, List.drop_zero,
      List.dropLast_concat]
  have hsplit : strSplit (List.intercalate [' '] (r.flags.map Subtype.val)) =
      r.flags.map Subtype.val := by
    apply splitBlankFrom_intercalate (by decide)
    intro w hw
    obtain ⟨flag, _, rfl⟩ := List.mem_map.mp hw
    exact ⟨flag.2.1, fun c hc => (flag.2.2 c hc).1⟩
  have hclean : (r.flags.map Subtype.val).any (fun flag => flag.any fun c => c.toNat < 0x20) =
      false := by
    rw [List.any_eq_false]
    intro w hw
    obtain ⟨flag, _, rfl⟩ := List.mem_map.mp hw
    simp only [List.any_eq_true, decide_eq_true_eq, not_exists, not_and, Nat.not_lt]
    exact fun c hc => (flag.2.2 c hc).2
  have hfirst : r.flagsText.head? = some '[' := rfl
  have hlast : r.flagsText.getLast? = some ']' := by
    rw [Printed.flagsText, List.getLast?_concat]
  unfold strictFlags
  simp only [strStrip_flagsText, hfirst, hlast, hinner, hsplit, hclean]
  simp

theorem strStrip_stamp (stamp : Stamp) : strStrip stamp.text = stamp.text := by
  apply stripBy_eq_self
  · intro c hc
    apply isSpace_of_mem_decimal
    unfold Stamp.text at hc
    rw [List.head?_append_of_ne_nil] at hc
    · exact List.mem_of_mem_head? hc
    · unfold Decimal.decimal
      split <;> simp [Decimal.digits_ne_nil]
  · intro c hc
    apply stamp.last
    rw [Stamp.text, List.getLast?_append, List.getLast?_cons,
      List.getLast?_eq_some_getLast stamp.human_ne] at hc
    rw [List.getLast?_eq_some_getLast stamp.human_ne]
    simpa using hc

theorem strictStamp_text (stamp : Stamp) (field : String) :
    strictStamp stamp.text field = .ok stamp.value := by
  have hpartition :
      partition [' '] stamp.text = some (Decimal.decimal stamp.unix, stamp.human) := by
    apply partition_singleton
    intro h
    have := isSpace_of_mem_decimal h
    revert this
    decide
  have hsize : stamp.unix.natAbs < 10 ^ 20 := by
    have := stamp.unix_range
    omega
  have hunix := strictOutputInteger_decimal field stamp.unix_range hsize
  unfold strictStamp
  simp only [hpartition, Option.getD_some, hunix]
  simp [bind, Except.bind, pure, Except.pure, Stamp.value, stamp.human_ne]

/-! ## Lines -/

theorem isLineBreak_of_not_isSpace {c : Char} (hc : isSpace c = false) : isLineBreak c = false := by
  simp only [isSpace, Bool.or_eq_false_iff, Bool.and_eq_false_iff, decide_eq_false_iff_not,
    beq_eq_false_iff_ne] at hc
  simp only [isLineBreak, Bool.or_eq_false_iff, Bool.and_eq_false_iff, decide_eq_false_iff_not,
    beq_eq_false_iff_ne]
  omega

/-- The lines that one printed line is read as. -/
def physicalLines (line : Text) : List Text := strSplitlines (line ++ ['\n'])

theorem physicalLines_of_no_break {line : Text} (hline : ∀ c ∈ line, isLineBreak c = false) :
    physicalLines line = [line] := by
  unfold physicalLines strSplitlines splitlines
  rw [splitlinesFrom_plains line [] ['\n'] hline, splitlinesFrom_lf (by decide) (by decide)]
  rfl

theorem strSplitlines_unlines {lines : List Text} (hlines : ∀ line ∈ lines, '\r' ∉ line)
    (rest : Text) :
    strSplitlines (unlines '\n' lines ++ rest) =
      lines.flatMap physicalLines ++ strSplitlines rest := by
  induction lines with
  | nil => rfl
  | cons line lines ih =>
      have htail := ih fun l hl => hlines l (List.mem_cons_of_mem _ hl)
      have hsplit : strSplitlines (line ++ '\n' :: (unlines '\n' lines ++ rest)) =
          physicalLines line ++ strSplitlines (unlines '\n' lines ++ rest) :=
        splitlinesFrom_append_lf (by decide) (by decide) line [] _ (hlines line (by simp))
      rw [unlines_cons, hsplit, htail, List.flatMap_cons, List.append_assoc]

theorem labelled_eq_append (label : String) (value : Text) :
    labelled label value = (label.toList ++ [':', ' ']) ++ value := by
  simp [labelled]

theorem keyValue_labelled {label : String} {key : Text} (hlabel : ':' ∉ label.toList)
    (hkey : asciiLower (strStrip label.toList) = key) (value : Text) :
    keyValue (labelled label value) = some (key, strStrip value) := by
  have hstrip : strStrip (' ' :: value) = strStrip value := stripBy_cons (by decide) value
  rw [keyValue, labelled, partition_singleton hlabel, Option.map_some, hkey, hstrip]

theorem keyValue_eq_none_iff (line : Text) : keyValue line = none ↔ ':' ∉ line := by
  rw [keyValue, Option.map_eq_none_iff, partition_singleton_eq_none_iff]

/-! ## The meta-data part -/

/-- The record after the meta-data lines. -/
def Printed.scanned (r : Printed) : MessageRecord :=
  { r.metadata with dateUnix := none, date := none }

section MetadataLines

variable (record : MessageRecord) (value : Text)

theorem metadataLine_uid :
    metadataLine record (labelled "UID" value) =
      (strictOutputInteger (strStrip value) "message UID" 1 maxImapUid).map
        fun uid => { record with uid := some uid } := by
  have hkey : keyValue (labelled "UID" value) = some ("uid".toList, strStrip value) :=
    keyValue_labelled (by decide) (by decide) value
  rw [metadataLine, hkey]
  rfl

theorem metadataLine_sequenceNumber :
    metadataLine record (labelled "Sequence number" value) =
      (strictOutputInteger (strStrip value) "message sequence number" 1 maxImapUid).map
        fun number => { record with sequenceNumber := some number } := by
  have hkey : keyValue (labelled "Sequence number" value) =
      some ("sequence number".toList, strStrip value) :=
    keyValue_labelled (by decide) (by decide) value
  rw [metadataLine, hkey]
  rfl

theorem metadataLine_flags :
    metadataLine record (labelled "Flags" value) =
      (strictFlags (strStrip value)).map fun flags => { record with flags := some flags } := by
  have hkey : keyValue (labelled "Flags" value) = some ("flags".toList, strStrip value) :=
    keyValue_labelled (by decide) (by decide) value
  rw [metadataLine, hkey]
  rfl

theorem metadataLine_bodySize :
    metadataLine record (labelled "Body size" value) =
      (strictOutputInteger (strStrip value) "message body size" 0 (2 ^ 63 - 1)).map
        fun size => { record with bodySize := some size } := by
  have hkey : keyValue (labelled "Body size" value) = some ("body size".toList, strStrip value) :=
    keyValue_labelled (by decide) (by decide) value
  rw [metadataLine, hkey]
  rfl

theorem metadataLine_internalDate :
    metadataLine record (labelled "Internal date" value) =
      (strictStamp (strStrip value) "message internal date").map
        fun stamp => { record with
          internalDateUnix := some stamp.1
          internalDate := some stamp.2 } := by
  have hkey : keyValue (labelled "Internal date" value) =
      some ("internal date".toList, strStrip value) :=
    keyValue_labelled (by decide) (by decide) value
  rw [metadataLine, hkey]
  rfl

end MetadataLines

/-- The meta-data lines are read back. -/
theorem metadataLines_read (r : Printed) :
    ([] :: r.metadataLines).foldlM metadataLine { flags := some [] } = .ok r.scanned := by
  have huid : r.uid.natAbs < 10 ^ 20 := by
    have := r.uid_range
    unfold maxImapUid at this
    omega
  have hnumber : r.sequenceNumber.natAbs < 10 ^ 20 := by
    have := r.sequenceNumber_range
    unfold maxImapUid at this
    omega
  have hsize : r.bodySize.natAbs < 10 ^ 20 := by
    have := r.bodySize_range
    omega
  have hblank : ∀ record, metadataLine record [] = .ok record := fun _ => rfl
  simp only [Printed.metadataLines, List.foldlM_cons, List.foldlM_nil, hblank,
    metadataLine_uid, metadataLine_sequenceNumber, metadataLine_flags, metadataLine_bodySize,
    metadataLine_internalDate, strStrip_decimal, strStrip_flagsText, strStrip_stamp,
    strictOutputInteger_decimal _ r.uid_range huid,
    strictOutputInteger_decimal _ r.sequenceNumber_range hnumber,
    strictOutputInteger_decimal _ r.bodySize_range hsize, strictFlags_flagsText, strictStamp_text]
  rfl

/-! ## The envelope part -/

/-- A record with the given date. -/
def setDate (record : MessageRecord) (date : Option (Int × Text)) : MessageRecord :=
  { record with dateUnix := date.map Prod.fst, date := date.map Prod.snd }

section Envelope

variable (codecs : Codecs)

theorem envelopeLine_of_readable {record base : MessageRecord} {date : Option (Int × Text)}
    {line : Text} (hrecord : metadata record = setDate base date) (hline : Readable line) :
    ∃ record', envelopeLine codecs record line = .ok record' ∧
      metadata record' = setDate base (dateAfter date line) := by
  obtain ⟨hshape, hdate⟩ := hline
  unfold lineDate at hdate
  unfold envelopeLine dateAfter lineDate
  cases hkey : keyValue line with
  | none =>
      have hcolon := (keyValue_eq_none_iff line).mp hkey
      have hblank : (strStrip line).isEmpty = true := hshape.resolve_right hcolon
      exact ⟨record, by simp [hblank], by simpa using hrecord⟩
  | some entry =>
      obtain ⟨key, value⟩ := entry
      rw [hkey] at hdate
      by_cases hname : key = "date".toList
      · simp only [hname, if_true] at hdate ⊢
        cases hstamp : strictStamp value "envelope date" with
        | error e =>
            have := hdate _ rfl
            rw [hstamp] at this
            cases this
        | ok stamp =>
            refine ⟨{ record with dateUnix := some stamp.1, date := some stamp.2 }, rfl, ?_⟩
            simp only [metadata, setDate, MessageRecord.mk.injEq] at hrecord ⊢
            simp_all
      · simp only [hname, if_false]
        cases hfield : envelopeKey key with
        | none => exact ⟨record, rfl, hrecord⟩
        | some field =>
            refine ⟨_, rfl, ?_⟩
            rw [← hrecord]
            rfl

theorem envelopeLine_of_not_readable (record : MessageRecord) {line : Text}
    (hline : ¬ Readable line) : ∃ e, envelopeLine codecs record line = .error e := by
  unfold Readable lineDate at hline
  unfold envelopeLine
  cases hkey : keyValue line with
  | none =>
      have hcolon := (keyValue_eq_none_iff line).mp hkey
      have hblank : (strStrip line).isEmpty = false := by
        rw [Bool.eq_false_iff]
        intro h
        apply hline
        refine ⟨.inl h, ?_⟩
        intro outcome houtcome
        rw [hkey] at houtcome
        cases houtcome
      exact ⟨"full Maddy envelope line is malformed", by simp [hblank]⟩
  | some entry =>
      obtain ⟨key, value⟩ := entry
      have hcolon : ':' ∈ line := by
        by_contra h
        rw [(keyValue_eq_none_iff line).mpr h] at hkey
        cases hkey
      simp only [hkey] at hline
      by_cases hname : key = "date".toList
      · simp only [hname, if_true] at hline ⊢
        cases hstamp : strictStamp value "envelope date" with
        | error e => exact ⟨e, rfl⟩
        | ok stamp =>
            exfalso
            apply hline
            refine ⟨.inr hcolon, ?_⟩
            rintro outcome houtcome
            cases houtcome
            rw [hstamp]
            rfl
      · exfalso
        apply hline
        refine ⟨.inr hcolon, ?_⟩
        intro outcome houtcome
        rw [if_neg hname] at houtcome
        cases houtcome

theorem envelope_fold {lines : List Text} {record base : MessageRecord}
    {date : Option (Int × Text)} (hrecord : metadata record = setDate base date)
    (hlines : ∀ line ∈ lines, Readable line) :
    ∃ record', lines.foldlM (envelopeLine codecs) record = .ok record' ∧
      metadata record' = setDate base (lines.foldl dateAfter date) := by
  induction lines generalizing record date with
  | nil => exact ⟨record, rfl, hrecord⟩
  | cons line lines ih =>
      obtain ⟨next, hnext, hdate⟩ := envelopeLine_of_readable codecs hrecord (hlines line (by simp))
      obtain ⟨last, hlast, hfold⟩ := ih hdate fun l hl => hlines l (List.mem_cons_of_mem _ hl)
      refine ⟨last, ?_, hfold⟩
      rw [List.foldlM_cons, hnext]
      exact hlast

theorem readable_of_envelope_fold {lines : List Text} {record record' : MessageRecord}
    (hfold : lines.foldlM (envelopeLine codecs) record = .ok record') :
    ∀ line ∈ lines, Readable line := by
  induction lines generalizing record with
  | nil => simp
  | cons line lines ih =>
      rw [List.foldlM_cons] at hfold
      by_cases hline : Readable line
      · cases hnext : envelopeLine codecs record line with
        | error e =>
            rw [hnext] at hfold
            cases hfold
        | ok next =>
            rw [hnext] at hfold
            intro l hl
            rcases List.mem_cons.mp hl with rfl | hl
            · exact hline
            · exact ih hfold l hl
      · obtain ⟨e, he⟩ := envelopeLine_of_not_readable codecs record hline
        rw [he] at hfold
        cases hfold

end Envelope

/-! ## The lines of a header -/

theorem header_physicalLines (h : Header) :
    ∃ first, physicalLines (headerLine h) =
      labelled (fieldName h.1) first :: smuggledLines h.2.val := by
  obtain ⟨first, lines, hstart⟩ : ∃ first lines, ∀ start,
      splitlinesFrom isLineBreak '\r' '\n' false start (h.2.val ++ ['\n']) =
        (start ++ first) :: lines :=
    splitlinesFrom_start (by decide) (by decide) h.2.val h.2.2.1
  have hname : ∀ c ∈ (fieldName h.1).toList ++ [':', ' '], isLineBreak c = false := by
    cases h.1 <;> exact List.all_iff_forall_prop.mp (by decide)
  have hsmuggled : smuggledLines h.2.val = lines := by
    unfold smuggledLines strSplitlines splitlines
    rw [hstart]
    rfl
  refine ⟨first, ?_⟩
  have hline : headerLine h ++ ['\n'] =
      ((fieldName h.1).toList ++ [':', ' ']) ++ (h.2.val ++ ['\n']) := by
    rw [headerLine, labelled_eq_append, List.append_assoc]
  unfold physicalLines strSplitlines splitlines
  rw [hline, splitlinesFrom_plains _ [] _ hname, hstart, hsmuggled, labelled_eq_append,
    List.nil_append]

/-- A line that begins with a header name is read, and is no date. -/
theorem fieldName_line (field : HeaderField) (text : Text) :
    Readable (labelled (fieldName field) text) ∧
      ∀ date, dateAfter date (labelled (fieldName field) text) = date := by
  have hcolon : ':' ∉ (fieldName field).toList := by cases field <;> decide
  have hkey := keyValue_labelled hcolon rfl text
  have hname : asciiLower (strStrip (fieldName field).toList) ≠ "date".toList := by
    cases field <;> decide
  have hdate : lineDate (labelled (fieldName field) text) = none := by
    rw [lineDate, hkey]
    exact if_neg hname
  constructor
  · refine ⟨.inr (by simp [labelled]), ?_⟩
    intro outcome houtcome
    rw [hdate] at houtcome
    cases houtcome
  · intro date
    rw [dateAfter, hdate]

theorem headers_lines (headers : List Header) :
    ((∀ line ∈ (headers.map headerLine).flatMap physicalLines, Readable line) ↔
      ∀ line ∈ Printed.smuggled headers, Readable line) ∧
    ∀ date, ((headers.map headerLine).flatMap physicalLines).foldl dateAfter date =
      (Printed.smuggled headers).foldl dateAfter date := by
  induction headers with
  | nil => simp [Printed.smuggled]
  | cons h headers ih =>
      obtain ⟨first, hphysical⟩ := header_physicalLines h
      obtain ⟨hread, hdate⟩ := fieldName_line h.1 first
      have hsmuggled : Printed.smuggled (h :: headers) =
          smuggledLines h.2.val ++ Printed.smuggled headers := rfl
      rw [List.map_cons, List.flatMap_cons, hphysical, hsmuggled]
      constructor
      · simp only [List.mem_append, or_imp, forall_and, ih.1, List.forall_mem_cons]
        exact and_congr_left fun _ => and_iff_right hread
      · intro date
        rw [List.cons_append, List.foldl_cons, hdate, List.foldl_append, List.foldl_append, ih.2]

theorem decimal_no_break (i : Int) : ∀ c ∈ Decimal.decimal i, isLineBreak c = false :=
  fun _ hc => isLineBreak_of_not_isSpace (isSpace_of_mem_decimal hc)

theorem stamp_no_break (stamp : Stamp) : ∀ c ∈ stamp.text, isLineBreak c = false := by
  intro c hc
  rw [Stamp.text, List.mem_append, List.mem_cons] at hc
  rcases hc with hc | rfl | hc
  · exact decimal_no_break _ c hc
  · decide
  · exact stamp.one_line c hc

theorem labelled_no_break {label : String} {text : Text}
    (hlabel : label.toList.any isLineBreak = false)
    (htext : ∀ c ∈ text, isLineBreak c = false) :
    ∀ c ∈ labelled label text, isLineBreak c = false := by
  intro c hc
  rw [labelled, List.mem_append, List.mem_cons, List.mem_cons] at hc
  rcases hc with hc | rfl | rfl | hc
  · exact Bool.eq_false_iff.mpr (List.any_eq_false.mp hlabel c hc)
  · decide
  · decide
  · exact htext c hc

theorem dateLine_line (stamp : Stamp) :
    physicalLines (dateLine stamp) = [dateLine stamp] ∧ Readable (dateLine stamp) ∧
      ∀ date, dateAfter date (dateLine stamp) = some stamp.value := by
  have hkey : keyValue (dateLine stamp) = some ("date".toList, strStrip stamp.text) :=
    keyValue_labelled (by decide) (by decide) stamp.text
  rw [strStrip_stamp] at hkey
  have hdate : lineDate (dateLine stamp) = some (.ok stamp.value) := by
    rw [lineDate, hkey]
    simp [strictStamp_text]
  refine ⟨?_, ⟨.inr ?_, ?_⟩, ?_⟩
  · apply physicalLines_of_no_break
    exact labelled_no_break (by decide) (stamp_no_break stamp)
  · simp [dateLine, labelled]
  · intro outcome houtcome
    rw [hdate] at houtcome
    cases houtcome
    rfl
  · intro date
    rw [dateAfter, hdate]

/-! ## Where a marker can stand -/

/-- A number printed before a blank and a text without `- ` makes no marker. -/
theorem stamp_no_marker (stamp : Stamp) : hasSubstring ['-', ' '] stamp.text = false := by
  have hdash : ∀ n : Nat, '-' ∉ Decimal.digits n := by
    intro n h
    have := Decimal.isDigit_of_mem_digits h
    revert this
    decide
  have htail : hasSubstring ['-', ' '] (' ' :: stamp.human) = false := by
    rw [hasSubstring, stamp.no_dash_blank]
    rfl
  have hdigits :
      ∀ n : Nat, hasSubstring ['-', ' '] (Decimal.digits n ++ ' ' :: stamp.human) = false := by
    intro n
    rw [hasSubstring_append_of_not_mem (hdash n), htail]
  unfold Stamp.text Decimal.decimal
  split
  · have hno : ['-', ' '].isPrefixOf
        ('-' :: (Decimal.digits stamp.unix.natAbs ++ ' ' :: stamp.human)) = false := by
      cases hd : Decimal.digits stamp.unix.natAbs with
      | nil => exact absurd hd (Decimal.digits_ne_nil _)
      | cons d ds =>
          have hd' : Decimal.isDigit d = true :=
            Decimal.isDigit_of_mem_digits (hd ▸ List.mem_cons_self)
          have hne : ' ' ≠ d := by
            rintro rfl
            revert hd'
            decide
          simp [List.isPrefixOf, hne]
    rw [List.cons_append, hasSubstring, hno, hdigits, Bool.or_false]
  · exact hdigits _

section Marker

variable {tail : Text}

theorem hasSubstring_labelled {label : String} (hlabel : '-' ∉ label.toList) (value : Text) :
    hasSubstring ('-' :: ' ' :: tail) (labelled label value) =
      hasSubstring ('-' :: ' ' :: tail) value := by
  rw [labelled_eq_append]
  apply hasSubstring_append_of_not_mem
  rw [List.mem_append, not_or]
  exact ⟨hlabel, by decide⟩

theorem line_no_marker {label : String} (hlabel : '-' ∉ label.toList) {i : Int} (hi : 0 ≤ i) :
    hasSubstring ('-' :: ' ' :: tail) (labelled label (Decimal.decimal i)) = false := by
  rw [hasSubstring_labelled hlabel]
  apply hasSubstring_eq_false_of_not_mem (c := '-') (by simp)
  unfold Decimal.decimal
  rw [if_neg (by omega)]
  intro h
  have := Decimal.isDigit_of_mem_digits h
  revert this
  decide

theorem stampLine_no_marker {label : String} (hlabel : '-' ∉ label.toList) (stamp : Stamp) :
    hasSubstring ('-' :: ' ' :: tail) (labelled label stamp.text) = false := by
  rw [hasSubstring_labelled hlabel]
  exact hasSubstring_of_isPrefixOf ⟨tail, rfl⟩ (stamp_no_marker stamp)

/-- In the meta-data part only the flags can hold a marker. -/
theorem metadataLines_any (r : Printed) :
    r.metadataLines.any (hasSubstring ('-' :: ' ' :: tail)) =
      hasSubstring ('-' :: ' ' :: tail) r.flagsText := by
  have huid := r.uid_range
  have hnumber := r.sequenceNumber_range
  have hsize := r.bodySize_range
  simp only [Printed.metadataLines, List.any_cons, List.any_nil,
    hasSubstring_labelled (show '-' ∉ "Flags".toList by decide),
    line_no_marker (show '-' ∉ "UID".toList by decide) (show 0 ≤ r.uid by omega),
    line_no_marker (show '-' ∉ "Sequence number".toList by decide)
      (show 0 ≤ r.sequenceNumber by omega),
    line_no_marker (show '-' ∉ "Body size".toList by decide) (show 0 ≤ r.bodySize by omega),
    stampLine_no_marker (show '-' ∉ "Internal date".toList by decide) r.internalDate]
  simp

end Marker

theorem headerLine_marker (h : Header) :
    hasSubstring metadataMarker (headerLine h) = hasSubstring metadataMarker h.2.val := by
  unfold headerLine
  cases h.1 <;> rfl

/-- The lines of a body, of which the second part starts with its own marker. -/
theorem body_eq_unlines (r : Printed) :
    r.body = unlines '\n' ([] :: r.metadataLines ++
      (envelopeMarker :: r.envelopeLines ++ [[]])) := by
  simp [Printed.body, unlines]

/-- A further marker in a body stands in a header or in the flags. -/
theorem body_lines_any_eq_false_iff (r : Printed) :
    ([] :: r.metadataLines ++ (envelopeMarker :: r.envelopeLines ++ [[]])).any
        (hasSubstring metadataMarker) = false ↔
      (∀ h ∈ r.before ++ r.after, hasSubstring metadataMarker h.2.val = false) ∧
        hasSubstring metadataMarker r.flagsText = false := by
  have hmetadata : r.metadataLines.any (hasSubstring metadataMarker) =
      hasSubstring metadataMarker r.flagsText := metadataLines_any r
  have hnil : hasSubstring metadataMarker [] = false := rfl
  have henvelope : hasSubstring metadataMarker envelopeMarker = false := by decide
  have hheaders : ∀ headers : List Header,
      (headers.map headerLine).any (hasSubstring metadataMarker) =
        headers.any fun h => hasSubstring metadataMarker h.2.val := by
    intro headers
    rw [List.any_map]
    congr 1
    funext h
    exact headerLine_marker h
  have hdate : (r.date.map dateLine).toList.any (hasSubstring metadataMarker) = false := by
    cases r.date with
    | none => rfl
    | some stamp =>
        have hline : hasSubstring metadataMarker (dateLine stamp) = false :=
          stampLine_no_marker (by decide) stamp
        simp [hline]
  simp only [List.any_append, List.any_cons, List.any_nil, hnil, hmetadata, henvelope,
    Printed.envelopeLines, hheaders, hdate, Bool.or_false, Bool.false_or, Bool.or_eq_false_iff,
    List.any_eq_false, List.mem_append, or_imp, forall_and, Bool.not_eq_true]
  exact and_comm

/-! ## Blocks -/

/-- The body of a record holds no further `- Server meta-data:`. -/
def Unmarked (r : Printed) : Prop :=
  (∀ h ∈ r.before ++ r.after, hasSubstring metadataMarker h.2.val = false) ∧
    hasSubstring metadataMarker r.flagsText = false

theorem splitFrom_render (records : List Printed) (hunmarked : ∀ r ∈ records, Unmarked r)
    (piece : Text) :
    splitFrom metadataMarker 0 piece (render records) = piece :: records.map Printed.body := by
  induction records generalizing piece with
  | nil => rfl
  | cons r records ih =>
      have htail := ih fun r' hr' => hunmarked r' (List.mem_cons_of_mem _ hr')
      have hlines := (body_lines_any_eq_false_iff r).mpr (hunmarked r (by simp))
      have hrender : render (r :: records) = metadataMarker ++ (r.body ++ render records) := by
        simp [render]
      rw [hrender, splitFrom_self_append (by decide), body_eq_unlines,
        splitFrom_unlines (by decide) (by decide) hlines, htail, List.nil_append, List.map_cons,
        ← body_eq_unlines]

/-- Every record adds a block, and a further marker adds one more. -/
theorem length_add_le_occurrences (records : List Printed) :
    records.length ≤ occurrences metadataMarker (render records) ∧
      ((∃ r ∈ records, ¬ Unmarked r) →
        records.length < occurrences metadataMarker (render records)) := by
  induction records with
  | nil => simp
  | cons r records ih =>
      have hrender : render (r :: records) = metadataMarker ++ (r.body ++ render records) := by
        simp [render]
      have hself : occurrences metadataMarker metadataMarker = 1 := by decide
      have hmarker : occurrences metadataMarker metadataMarker +
          occurrences metadataMarker (r.body ++ render records) ≤
            occurrences metadataMarker (metadataMarker ++ (r.body ++ render records)) :=
        occurrences_append_le _ _
      have hbody : occurrences metadataMarker r.body + occurrences metadataMarker (render records) ≤
          occurrences metadataMarker (r.body ++ render records) := occurrences_append_le _ _
      rw [hrender, List.length_cons]
      constructor
      · have := ih.1
        omega
      · rintro ⟨bad, hmem, hbad⟩
        rcases List.mem_cons.mp hmem with rfl | hmem
        · have hhas : hasSubstring metadataMarker bad.body = true := by
            rw [body_eq_unlines, ← List.append_nil (unlines _ _),
              hasSubstring_unlines (by decide) (by decide), Bool.or_eq_true]
            left
            rw [← Bool.not_eq_false]
            exact fun h => hbad ((body_lines_any_eq_false_iff bad).mp h)
          have hpos := occurrences_pos (by decide) hhas
          have := ih.1
          omega
        · have := ih.2 ⟨bad, hmem, hbad⟩
          omega

/-- Within the limits a listing goes to the full parser, block by block. -/
theorem parseMessageList_render (codecs : Codecs) (records : List Printed)
    (hlimits : withinLimits (render records) = true) :
    parseMessageList codecs (render records) =
      ((split metadataMarker (render records)).drop 1).mapM (parseBlock codecs) := by
  simp only [withinLimits, Bool.and_eq_true, decide_eq_true_eq, List.all_eq_true] at hlimits
  obtain ⟨hsize, hlines⟩ := hlimits
  have hlong : (strSplitlines (render records)).any
      (fun line => maxMessageOutputLineChars < line.length) = false := by
    rw [List.any_eq_false]
    intro line hline
    have := hlines line hline
    simpa using this
  unfold parseMessageList
  rw [if_neg (by omega), if_neg (by simp [hlong])]
  cases records with
  | nil => rfl
  | cons r records =>
      have hrender : render (r :: records) = metadataMarker ++ (r.body ++ render records) := by
        simp [render]
      have hdrop : (render (r :: records)).dropWhile isSpace = render (r :: records) := by
        apply dropWhile_eq_self
        intro c hc
        rw [hrender] at hc
        cases hc
        decide
      have hstrip : (strStrip (render (r :: records))).isEmpty = false := by
        have hmem : '-' ∈ strStrip (render (r :: records)) := by
          unfold strStrip stripBy
          rw [hdrop, List.mem_reverse]
          apply mem_dropWhile _ (by decide)
          rw [List.mem_reverse, hrender, List.mem_append]
          exact .inl (by decide)
        rw [List.isEmpty_eq_false_iff]
        exact List.ne_nil_of_mem hmem
      have hmarker : hasSubstring metadataMarker (render (r :: records)) = true := by
        rw [hrender]
        exact hasSubstring_self_append (by decide) _
      have hstarts :
          metadataMarker.isPrefixOf ((render (r :: records)).dropWhile isSpace) = true := by
        rw [hdrop, hrender]
        exact List.isPrefixOf_iff_prefix.mpr (List.prefix_append _ _)
      rw [if_neg (by simp [hstrip]), if_neg (by simp [hmarker]), if_neg (by simp [hstarts])]

/-! ## One block -/

theorem flagsText_no_break (r : Printed) : ∀ c ∈ r.flagsText, isLineBreak c = false := by
  have hwords : ∀ (words : List Text), (∀ w ∈ words, ∀ c ∈ w, isSpace c = false) →
      ∀ c ∈ List.intercalate [' '] words, isLineBreak c = false := by
    intro words
    induction words with
    | nil => simp
    | cons w words ih =>
        intro hwords c hc
        have hw := hwords w (by simp)
        have htail := ih fun v hv => hwords v (List.mem_cons_of_mem _ hv)
        cases words with
        | nil =>
            rw [List.intercalate_singleton] at hc
            exact isLineBreak_of_not_isSpace (hw c hc)
        | cons v words =>
            rw [List.intercalate_cons_cons, List.mem_append, List.mem_append] at hc
            rcases hc with (hc | hc) | hc
            · exact isLineBreak_of_not_isSpace (hw c hc)
            · rw [List.mem_singleton] at hc
              subst hc
              decide
            · exact htail c hc
  intro c hc
  rw [Printed.flagsText, List.mem_append, List.mem_cons, List.mem_singleton] at hc
  rcases hc with (rfl | hc) | rfl
  · decide
  · apply hwords _ _ c hc
    intro w hw
    obtain ⟨flag, _, rfl⟩ := List.mem_map.mp hw
    exact fun d hd => (flag.2.2 d hd).1
  · decide

theorem metadataLines_no_break (r : Printed) :
    ∀ line ∈ r.metadataLines, ∀ c ∈ line, isLineBreak c = false := by
  simp only [Printed.metadataLines, List.forall_mem_cons]
  exact ⟨labelled_no_break (by decide) (decimal_no_break _),
    labelled_no_break (by decide) (decimal_no_break _),
    labelled_no_break (by decide) (flagsText_no_break r),
    labelled_no_break (by decide) (decimal_no_break _),
    labelled_no_break (by decide) (stamp_no_break _), by simp⟩

theorem not_mem_of_no_break {line : Text} (hline : ∀ c ∈ line, isLineBreak c = false) :
    '\r' ∉ line := by
  intro h
  have := hline _ h
  revert this
  decide

theorem flatMap_physicalLines {lines : List Text}
    (hlines : ∀ line ∈ lines, ∀ c ∈ line, isLineBreak c = false) :
    lines.flatMap physicalLines = lines := by
  induction lines with
  | nil => rfl
  | cons line lines ih =>
      rw [List.flatMap_cons, physicalLines_of_no_break (hlines line (by simp)),
        ih fun l hl => hlines l (List.mem_cons_of_mem _ hl)]
      rfl

theorem envelopeLines_no_cr (r : Printed) : ∀ line ∈ r.envelopeLines, '\r' ∉ line := by
  have hheader : ∀ h : Header, '\r' ∉ headerLine h := by
    intro h hmem
    rw [headerLine, labelled, List.mem_append, List.mem_cons, List.mem_cons] at hmem
    rcases hmem with hmem | hmem | hmem | hmem
    · revert hmem
      cases h.1 <;> decide
    · exact absurd hmem (by decide)
    · exact absurd hmem (by decide)
    · exact h.2.2.1 hmem
  have hdate : ∀ stamp : Stamp, '\r' ∉ dateLine stamp := fun stamp =>
    not_mem_of_no_break (labelled_no_break (by decide) (stamp_no_break stamp))
  intro line hline
  rw [Printed.envelopeLines, List.mem_append, List.mem_append] at hline
  rcases hline with (hline | hline) | hline
  · obtain ⟨h, _, rfl⟩ := List.mem_map.mp hline
    exact hheader h
  · obtain ⟨stamp, _, rfl⟩ := Option.map_eq_some_iff.mp (Option.mem_toList.mp hline)
    exact hdate stamp
  · obtain ⟨h, _, rfl⟩ := List.mem_map.mp hline
    exact hheader h

/-- The lines that the envelope parser sees. -/
theorem envelope_lines (r : Printed) :
    ((∀ line ∈ strSplitlines (unlines '\n' ([] :: r.envelopeLines ++ [[]])), Readable line) ↔
      ∀ line ∈ Printed.smuggled (r.before ++ r.after), Readable line) ∧
    (strSplitlines (unlines '\n' ([] :: r.envelopeLines ++ [[]]))).foldl dateAfter none =
      r.lastDate := by
  have hblank : Readable [] ∧ ∀ date, dateAfter date [] = date := by
    refine ⟨⟨.inl rfl, ?_⟩, fun date => rfl⟩
    intro outcome houtcome
    cases houtcome
  have hsplit : strSplitlines (unlines '\n' ([] :: r.envelopeLines ++ [[]])) =
      [] :: r.envelopeLines.flatMap physicalLines ++ [[]] := by
    have hcr : ∀ line ∈ [] :: r.envelopeLines ++ [[]], '\r' ∉ line := by
      intro line hline
      rw [List.cons_append, List.mem_cons, List.mem_append, List.mem_singleton] at hline
      rcases hline with rfl | hline | rfl
      · simp
      · exact envelopeLines_no_cr r line hline
      · simp
    have h := strSplitlines_unlines hcr []
    have hnil : physicalLines [] = [[]] := rfl
    rw [List.append_nil] at h
    rw [h, List.cons_append, List.flatMap_cons, List.flatMap_append, List.flatMap_singleton, hnil]
    simp [strSplitlines, splitlines, splitlinesFrom]
  have hsmuggled : Printed.smuggled (r.before ++ r.after) =
      Printed.smuggled r.before ++ Printed.smuggled r.after := List.flatMap_append
  have hbefore := headers_lines r.before
  have hafter := headers_lines r.after
  rw [hsplit, hsmuggled]
  have hdate : (∀ line ∈ (r.date.map dateLine).toList.flatMap physicalLines, Readable line) ∧
      ∀ date, ((r.date.map dateLine).toList.flatMap physicalLines).foldl dateAfter date =
        (r.date.map Stamp.value).or date := by
    cases r.date with
    | none => exact ⟨by simp, fun date => rfl⟩
    | some stamp =>
        obtain ⟨hphysical, hread, hafterDate⟩ := dateLine_line stamp
        simp [hphysical, hread, hafterDate]
  have hdateTrue := iff_true_intro hdate.1
  constructor
  · simp only [Printed.envelopeLines, List.flatMap_append, List.cons_append, List.forall_mem_cons,
      List.forall_mem_append, hblank.1, hbefore.1, hafter.1, hdateTrue, true_and, and_true]
    simp
  · simp only [Printed.envelopeLines, List.flatMap_append, List.cons_append, List.foldl_cons,
      List.foldl_append, hblank.2, hbefore.2, hafter.2, hdate.2, List.foldl_nil, Printed.lastDate]

theorem setDate_scanned_eq_iff (r : Printed) (date : Option (Int × Text)) :
    setDate r.scanned date = r.metadata ↔ date = r.date.map Stamp.value := by
  constructor
  · intro h
    have hunix : date.map Prod.fst = r.date.map Stamp.unix := congrArg MessageRecord.dateUnix h
    have hhuman : date.map Prod.snd = r.date.map Stamp.human := congrArg MessageRecord.date h
    cases hdate : date with
    | none =>
        rw [hdate] at hunix
        cases hown : r.date with
        | none => rfl
        | some stamp =>
            rw [hown] at hunix
            cases hunix
    | some stamp =>
        rw [hdate] at hunix hhuman
        cases hown : r.date with
        | none =>
            rw [hown] at hunix
            cases hunix
        | some own =>
            rw [hown] at hunix hhuman
            simp only [Option.map_some, Option.some_inj] at hunix hhuman ⊢
            exact Prod.ext hunix hhuman
  · rintro rfl
    unfold setDate Printed.scanned Printed.metadata
    simp [Option.map_map, Function.comp_def, Stamp.value]

theorem scanned_metadata (r : Printed) : metadata r.scanned = setDate r.scanned none := rfl

/-- A block is read back when its flags hold no `- Envelope:`, its smuggled lines are readable
and its last date is its own. -/
theorem parseBlock_body_iff (codecs : Codecs) (r : Printed)
    (hflags : hasSubstring envelopeMarker r.flagsText = false) :
    (∃ record, parseBlock codecs r.body = .ok record ∧ metadata record = r.metadata) ↔
      (∀ line ∈ Printed.smuggled (r.before ++ r.after), Readable line) ∧
        r.lastDate = r.date.map Stamp.value := by
  have hany : r.metadataLines.any (hasSubstring envelopeMarker) = false := by
    rw [← hflags]
    exact metadataLines_any r
  have hpartition : partition envelopeMarker r.body =
      some (unlines '\n' ([] :: r.metadataLines),
        unlines '\n' ([] :: r.envelopeLines ++ [[]])) := by
    have hlines : ([] :: r.metadataLines).any (hasSubstring envelopeMarker) = false := by
      rw [List.any_cons, hany]
      rfl
    rw [Printed.body, partition_unlines (by decide) (by decide) hlines,
      partition_self_append (by decide)]
    simp
  have hmetadata :
      strSplitlines (unlines '\n' ([] :: r.metadataLines)) = [] :: r.metadataLines := by
    have hbreaks : ∀ line ∈ [] :: r.metadataLines, ∀ c ∈ line, isLineBreak c = false := by
      rw [List.forall_mem_cons]
      exact ⟨by simp, metadataLines_no_break r⟩
    have h := strSplitlines_unlines (fun line hline => not_mem_of_no_break (hbreaks line hline)) []
    rw [List.append_nil, flatMap_physicalLines hbreaks] at h
    rw [h]
    simp [strSplitlines, splitlines, splitlinesFrom]
  obtain ⟨hreadable, hdate⟩ := envelope_lines r
  rw [← hreadable, ← hdate]
  unfold parseBlock
  simp only [hpartition, hmetadata, metadataLines_read]
  generalize strSplitlines (unlines '\n' ([] :: r.envelopeLines ++ [[]])) = lines
  have huid : ∀ record : MessageRecord, metadata record = r.metadata →
      (record.uid.any fun uid => 1 ≤ uid && uid ≤ maxImapUid) = true := by
    intro record hrecord
    have : record.uid = some r.uid := congrArg MessageRecord.uid hrecord
    rw [this]
    simpa using r.uid_range
  constructor
  · rintro ⟨record, hrecord, hsame⟩
    cases hfold : lines.foldlM (envelopeLine codecs) r.scanned with
    | error e => simp [hfold, bind, Except.bind] at hrecord
    | ok last =>
        have hlines := readable_of_envelope_fold codecs hfold
        refine ⟨hlines, ?_⟩
        obtain ⟨last', hfold', hdates⟩ := envelope_fold codecs (scanned_metadata r) hlines
        rw [hfold] at hfold'
        cases hfold'
        have hlast : last = record := by
          simp only [hfold, bind, Except.bind] at hrecord
          split at hrecord
          · cases hrecord
            rfl
          · cases hrecord
        rw [hlast, hsame] at hdates
        exact (setDate_scanned_eq_iff r _).mp hdates.symm
  · rintro ⟨hlines, hlast⟩
    obtain ⟨last, hfold, hdates⟩ := envelope_fold codecs (scanned_metadata r) hlines
    have hsame : metadata last = r.metadata := by
      rw [hdates]
      exact (setDate_scanned_eq_iff r _).mpr hlast
    refine ⟨last, ?_, hsame⟩
    simp [hfold, bind, Except.bind, huid last hsame, pure, Except.pure]

/-- The lines of the meta-data part before the flags. -/
def Printed.topLines (r : Printed) : List Text :=
  [ [], labelled "UID" (Decimal.decimal r.uid),
    labelled "Sequence number" (Decimal.decimal r.sequenceNumber) ]

/-- The record of a block that is cut inside its flags. -/
def Printed.cutOff (r : Printed) (flags : List Text) : MessageRecord :=
  { uid := some r.uid, sequenceNumber := some r.sequenceNumber, flags := some flags }

theorem topLines_no_marker (r : Printed) :
    r.topLines.any (hasSubstring envelopeMarker) = false := by
  have huid := r.uid_range
  have hnumber := r.sequenceNumber_range
  have h1 : hasSubstring envelopeMarker (labelled "UID" (Decimal.decimal r.uid)) = false :=
    line_no_marker (by decide) (by omega)
  have h2 : hasSubstring envelopeMarker
      (labelled "Sequence number" (Decimal.decimal r.sequenceNumber)) = false :=
    line_no_marker (by decide) (by omega)
  simp only [Printed.topLines, List.any_cons, List.any_nil, h1, h2]
  rfl

/-- A block whose flags hold `- Envelope:` is cut inside them and loses the lines after. -/
theorem parseBlock_body_of_flags_marker (codecs : Codecs) (r : Printed)
    (hflags : hasSubstring envelopeMarker r.flagsText = true) :
    ¬ ∃ record, parseBlock codecs r.body = .ok record ∧ metadata record = r.metadata := by
  have hbody : ∃ rest, r.body =
      unlines '\n' r.topLines ++ (labelled "Flags" (r.flagsText ++ '\n' :: rest)) := by
    refine ⟨unlines '\n' [ labelled "Body size" (Decimal.decimal r.bodySize),
      labelled "Internal date" r.internalDate.text ] ++
        (envelopeMarker ++ unlines '\n' ([] :: r.envelopeLines ++ [[]])), ?_⟩
    simp [Printed.body, Printed.metadataLines, unlines, Printed.topLines, labelled]
  obtain ⟨rest, hbody⟩ := hbody
  obtain ⟨first, last, after, htext, hfound⟩ :=
    partition_append_of_hasSubstring (c := '\n') (by decide) (by decide) hflags rest
  have hpartition : partition envelopeMarker r.body =
      some (unlines '\n' r.topLines ++ (labelled "Flags" first), after) := by
    have hlabel : partition envelopeMarker (labelled "Flags" (r.flagsText ++ '\n' :: rest)) =
        (partition envelopeMarker (r.flagsText ++ '\n' :: rest)).map
          fun parts => (labelled "Flags" parts.1, parts.2) := by
      simp only [labelled_eq_append]
      exact partition_append_of_not_mem (by decide) _
    rw [hbody, partition_unlines (by decide) (by decide) (topLines_no_marker r), hlabel, hfound]
    rfl
  have hbreaks : ∀ line ∈ r.topLines, ∀ c ∈ line, isLineBreak c = false := by
    simp only [Printed.topLines, List.forall_mem_cons]
    exact ⟨by simp, labelled_no_break (by decide) (decimal_no_break _),
      labelled_no_break (by decide) (decimal_no_break _), by simp⟩
  have hfirst : ∀ c ∈ labelled "Flags" first, isLineBreak c = false := by
    apply labelled_no_break (by decide)
    intro c hc
    apply flagsText_no_break r
    rw [htext]
    exact List.mem_append_left _ hc
  have hlines : strSplitlines (unlines '\n' r.topLines ++ (labelled "Flags" first)) =
      r.topLines ++ [labelled "Flags" first] := by
    rw [strSplitlines_unlines (fun line hline => not_mem_of_no_break (hbreaks line hline)),
      flatMap_physicalLines hbreaks]
    have hlast : strSplitlines (labelled "Flags" first) = [labelled "Flags" first] := by
      have h : strSplitlines (labelled "Flags" first ++ []) =
          splitlinesFrom isLineBreak '\r' '\n' false ([] ++ (labelled "Flags" first)) [] :=
        splitlinesFrom_plains _ [] [] hfirst
      rw [List.append_nil] at h
      rw [h]
      rfl
    rw [hlast]
  have huid : r.uid.natAbs < 10 ^ 20 := by
    have := r.uid_range
    unfold maxImapUid at this
    omega
  have hnumber : r.sequenceNumber.natAbs < 10 ^ 20 := by
    have := r.sequenceNumber_range
    unfold maxImapUid at this
    omega
  have hfold : (r.topLines ++ [labelled "Flags" first]).foldlM metadataLine { flags := some [] } =
      (strictFlags (strStrip first)).map r.cutOff := by
    have hblank : ∀ record, metadataLine record [] = .ok record := fun _ => rfl
    simp only [Printed.topLines, List.cons_append, List.nil_append, List.foldlM_cons,
      List.foldlM_nil, hblank, metadataLine_uid, metadataLine_sequenceNumber, metadataLine_flags,
      strStrip_decimal, strictOutputInteger_decimal _ r.uid_range huid,
      strictOutputInteger_decimal _ r.sequenceNumber_range hnumber]
    cases strictFlags (strStrip first) <;> rfl
  have hstart : ∀ flags, metadata (r.cutOff flags) = setDate (r.cutOff flags) none := fun _ => rfl
  rintro ⟨record, hrecord, hsame⟩
  unfold parseBlock at hrecord
  simp only [hpartition, hlines, hfold] at hrecord
  cases hflagsOk : strictFlags (strStrip first) with
  | error e => simp [hflagsOk, Except.map, bind, Except.bind] at hrecord
  | ok flags =>
      simp only [hflagsOk, Except.map, bind, Except.bind] at hrecord
      split at hrecord
      · cases hrecord
      · rename_i last henvelope
        obtain ⟨last', hlast', hdates⟩ :=
          envelope_fold codecs (hstart flags) (readable_of_envelope_fold codecs henvelope)
        rw [henvelope] at hlast'
        cases hlast'
        split at hrecord
        · cases hrecord
          rw [hdates] at hsame
          have hsize : (none : Option Int) = some r.bodySize :=
            congrArg MessageRecord.bodySize hsame
          cases hsize
        · cases hrecord

/-! ## The listing -/

theorem readBlock_iff (codecs : Codecs) (r : Printed) (hunmarked : Unmarked r) :
    (∃ record, parseBlock codecs r.body = .ok record ∧ metadata record = r.metadata) ↔
      Harmless r := by
  cases hflags : hasSubstring envelopeMarker r.flagsText with
  | true =>
      refine iff_of_false (parseBlock_body_of_flags_marker codecs r hflags) ?_
      intro h
      rw [h.flags_envelope] at hflags
      cases hflags
  | false =>
      rw [parseBlock_body_iff codecs r hflags]
      constructor
      · rintro ⟨hreadable, hdate⟩
        exact ⟨hunmarked.1, hunmarked.2, hflags, hreadable, hdate⟩
      · intro h
        exact ⟨h.readable, h.date⟩

/-- A listing within the limits is read back, and the output contract stays intact, exactly
when every record of it is harmless. -/
theorem readBack_iff_harmless (codecs : Codecs) (records : List Printed)
    (hlimits : withinLimits (render records) = true) :
    ReadBack codecs records ↔ ∀ r ∈ records, Harmless r := by
  have hparse := parseMessageList_render codecs records hlimits
  have hread : ReadBack codecs records ↔
      ∃ parsed, parseMessageList codecs (render records) = .ok parsed ∧
        parsed.map metadata = records.map Printed.metadata := by
    unfold ReadBack listMessageSet
    cases parseMessageList codecs (render records) <;> simp
  rw [hread, hparse]
  by_cases hunmarked : ∀ r ∈ records, Unmarked r
  · have hblocks : (split metadataMarker (render records)).drop 1 = records.map Printed.body := by
      rw [split, splitFrom_render records hunmarked []]
      rfl
    rw [hblocks, List.mapM_map]
    rw [mapM_map_eq_iff]
    exact forall₂_congr fun r hr => readBlock_iff codecs r (hunmarked r hr)
  · have hbad : ∃ r ∈ records, ¬ Unmarked r := by
      simpa only [not_forall, exists_prop] using hunmarked
    refine iff_of_false ?_ ?_
    · rintro ⟨parsed, hparsed, hmap⟩
      have hcount := (length_add_le_occurrences records).2 hbad
      have hpieces : (split metadataMarker (render records)).length =
          1 + occurrences metadataMarker (render records) :=
        length_splitFrom (by decide) (by decide) [] _
      have hlength := length_of_mapM_ok hparsed
      have hsame := congrArg List.length hmap
      rw [List.length_drop] at hlength
      simp only [List.length_map] at hsame
      omega
    · obtain ⟨r, hr, hmarked⟩ := hbad
      intro h
      exact hmarked ⟨(h r hr).headers_marker, (h r hr).flags_marker⟩

/-! ### Three subjects -/

/-- Codecs for headers without encoded words, on which they are never asked. -/
def asciiCodecs : Codecs where
  b64decode _ := none
  decode _ _ := none
  isUnsafe := isControl
  isDecimal := Decimal.isDigit

def epoch : Stamp where
  unix := 0
  human := "1970-01-01 00:00:00 +0000 UTC".toList
  unix_range := by decide
  human_ne := by decide
  one_line := List.all_iff_forall_prop.mp (by decide)
  first c hc := by
    rw [← Option.mem_some.mp hc]
    decide
  last c hc := by
    rw [← Option.mem_some.mp hc]
    decide
  no_dash_blank := by decide

/-- A message of which only the subject varies. -/
def withSubject (subject : HeaderValue) : Printed where
  uid := 1
  sequenceNumber := 1
  flags := []
  bodySize := 100
  internalDate := epoch
  before := []
  date := some epoch
  after := [(.subject, subject)]
  uid_range := by decide
  sequenceNumber_range := by decide
  bodySize_range := by decide

def plainSubject : HeaderValue := ⟨"fixture".toList, by decide⟩

/-- A subject with a vertical tab in it. -/
def tabbedSubject : HeaderValue := ⟨"two\x0blines".toList, by decide⟩

/-- A subject that quotes the listing's own markers. -/
def markerSubject : HeaderValue :=
  ⟨"- Server meta-data:\x0bUID: 99\x0b- Envelope:\x0b".toList, by decide⟩

theorem readBack_iff_harmless_plainSubject :
    withinLimits (render [withSubject plainSubject]) = true ∧
      (ReadBack asciiCodecs [withSubject plainSubject] ↔
        ∀ r ∈ [withSubject plainSubject], Harmless r) := by
  have hlimits : withinLimits (render [withSubject plainSubject]) = true := by decide +kernel
  exact ⟨hlimits, readBack_iff_harmless asciiCodecs _ hlimits⟩

/-- One subject makes the listing fail and blocks later writes; another adds a message. -/
theorem subject_breaks_listing :
    withinLimits (render [withSubject tabbedSubject]) = true ∧
      listMessageSet asciiCodecs none (render [withSubject tabbedSubject]) =
        (.error .capabilityFingerprint, some "full Maddy envelope line is malformed") ∧
      withinLimits (render [withSubject markerSubject]) = true ∧
      (listMessageSet asciiCodecs none (render [withSubject markerSubject])).1.toOption.map
        (fun parsed => parsed.map MessageRecord.uid) = some [some 1, some 99] := by
  decide +kernel

end MaddyWeb.Maddy.Listing
