import Mathlib.Data.List.Sort
import Mathlib.Data.List.Lex
import Mathlib.Data.Prod.Lex
import Mathlib.Data.Char
import AgentClaimNetwork.Library.Decimal
import AgentClaimNetwork.Library.TornLog
import AgentClaimNetwork.Library.Trace
import Mathlib.Data.Int.ConditionallyCompleteOrder
import Mathlib.Order.ConditionallyCompleteLattice.Basic

/-!
`src/storage/jsonl.rs`: records appended as lines of `current.jsonl`, which is renamed to an
archive when it has grown, and the oldest archives removed.
-/

namespace AgentClaimNetwork.Storage

open Library LineLog TornLog List

variable {Record : Type}

abbrev Text := List Char

structure JsonlRotationConfig where
  maxFileBytes : Nat
  backupCount : Nat

structure RecordCodec (Record : Type) where
  text : Record → Text
  read : Text → Option Record
  clean : ∀ record, Clean (text record)
  starts : ∀ record, ∃ first, (text record).head? = some first ∧ isWhitespace first = false
  ends : ∀ record, ∃ last, (text record).getLast? = some last ∧ isWhitespace last = false
  read_text : ∀ record, read (text record) = some record

/-- The readings of `Utc::now().timestamp_millis()`, one after the other. -/
structure Clock where
  read : Nat → Int
  monotone : Monotone read
  low : ∀ instant, -2 ^ 63 ≤ read instant
  high : ∀ instant, read instant < 2 ^ 63

/-- The files of the directory, `current.jsonl` apart. -/
structure Directory where
  files : List (Text × List UInt8)
  current : Option (List UInt8)

structure Store where
  dir : Directory
  /-- How often the clock has been read. -/
  instant : Nat
  /-- Every archive that was ever made, oldest first. -/
  made : List (Text × List UInt8)

def Store.initial : Store := ⟨⟨[], none⟩, 0, []⟩

def Directory.contents (dir : Directory) (path : Text) : Option (List UInt8) :=
  (dir.files.find? fun file => file.1 = path).map Prod.snd

def archiveStem : Text := "archive_".toList

def archiveExtension : Text := ".jsonl".toList

def archiveName (timestamp : Int) (attempt : Nat) : Text :=
  archiveStem ++ (Json.renderNum timestamp ++
    (if attempt = 0 then [] else '_' :: Nat.toDigits 10 attempt)) ++ archiveExtension

def isArchive (name : Text) : Bool :=
  archiveStem.isPrefixOf name && archiveExtension.isSuffixOf name

def archivePaths (dir : Directory) : List Text := (dir.files.map Prod.fst).filter isArchive

def greatestStamp : Int := 2 ^ 63 - 1

def greatestSuffix : Nat := 2 ^ 32 - 1

def stripArchive (name : Text) : Option Text :=
  if archiveStem <+: name then
    let rest := name.drop archiveStem.length
    if archiveExtension <:+ rest then some (rest.take (rest.length - archiveExtension.length))
    else none
  else none

def archiveSortKey (name : Text) : Int ×ₗ Nat ×ₗ Text :=
  match stripArchive name with
  | none => toLex (greatestStamp, toLex (greatestSuffix, name))
  | some stem =>
    let (timestamp, suffix) := (Decimal.splitOnce '_' stem).getD (stem, ['0'])
    toLex ((Decimal.parseSigned 63 timestamp).getD greatestStamp,
      toLex ((Decimal.parseUnsigned greatestSuffix suffix).getD greatestSuffix, name))

def sortArchives (paths : List Text) : List Text :=
  paths.insertionSort fun left right => archiveSortKey left ≤ archiveSortKey right

section

variable (clock : Clock)

def uniqueArchivePath (store : Store) : Option Nat :=
  (range 100).find? fun attempt =>
    (store.dir.contents (archiveName (clock.read (store.instant + attempt)) attempt)).isNone

def cleanupArchives (dir : Directory) (backupCount : Nat) : Directory :=
  let archives := archivePaths dir
  if archives.length ≤ backupCount then dir
  else
    let removed := (sortArchives archives).take (archives.length - backupCount)
    { dir with files := dir.files.filter fun file => file.1 ∉ removed }

def Rotates (config : JsonlRotationConfig) (store : Store) : Prop :=
  ∃ bytes, store.dir.current = some bytes ∧ config.maxFileBytes ≤ bytes.length

instance (config : JsonlRotationConfig) (store : Store) : Decidable (Rotates config store) :=
  match current : store.dir.current with
  | none => isFalse (by
      rintro ⟨_, same, _⟩
      rw [current] at same
      cases same)
  | some bytes => decidable_of_iff (config.maxFileBytes ≤ bytes.length) (by
      unfold Rotates
      rw [current]
      simp)

/-- The store behind a rotation and whether it returned `Ok`. -/
def rotateIfNeeded (config : JsonlRotationConfig) (store : Store) : Store × Bool :=
  if config.maxFileBytes = 0 ∨ config.backupCount = 0 then (store, false)
  else match store.dir.current with
    | none => (store, true)
    | some bytes =>
      if bytes.length < config.maxFileBytes then (store, true)
      else match uniqueArchivePath clock store with
        | none => ({ store with instant := store.instant + 100 }, false)
        | some attempt =>
          let archive := (archiveName (clock.read (store.instant + attempt)) attempt, bytes)
          ({ dir := cleanupArchives ⟨store.dir.files ++ [archive], none⟩ config.backupCount
             instant := store.instant + attempt + 1
             made := store.made ++ [archive] }, true)

end

section

variable (codec : RecordCodec Record) (clock : Clock)

def lineBytes (record : Record) : List UInt8 := Utf8.encode (codec.text record) ++ [newline]

def writeLine (store : Store) (bytes : List UInt8) : Store :=
  { store with dir := { store.dir with current := some (store.dir.current.getD [] ++ bytes) } }

/-- The store behind a call, whether it wrote its line and whether it returned `Ok`. -/
def appendJsonlRecord (config : JsonlRotationConfig) (record : Record) (store : Store) :
    Store × Bool × Bool :=
  let (rotated, ready) := rotateIfNeeded clock config store
  if ready then
    let (stored, done) := rotateIfNeeded clock config (writeLine rotated (lineBytes codec record))
    (stored, true, done)
  else (rotated, false, false)

def readLine (raw : Text) : Option Record :=
  let line := trim raw
  if line = [] then none else codec.read line

def readRecords (bytes : List UInt8) : Option (List Record) :=
  (Utf8.strict bytes).map fun text => (lines text).filterMap (readLine codec)

def jsonlFiles (dir : Directory) : List (List UInt8) :=
  (sortArchives (archivePaths dir)).filterMap dir.contents ++ dir.current.toList

def readJsonlRecords (dir : Directory) : Option (List Record) :=
  ((jsonlFiles dir).mapM (readRecords codec)).map flatten

end

section

structure Stamped (timestamp : Int) (suffix : Nat) : Prop where
  low : -2 ^ 63 ≤ timestamp
  high : timestamp < 2 ^ 63
  few : suffix < 100

variable {timestamp : Int} {suffix : Nat}

theorem stripArchive_archiveName (timestamp : Int) (suffix : Nat) :
    stripArchive (archiveName timestamp suffix) = some (Json.renderNum timestamp ++
      (if suffix = 0 then [] else '_' :: Nat.toDigits 10 suffix)) := by
  unfold archiveName stripArchive
  generalize Json.renderNum timestamp ++ _ = stem
  rw [append_assoc, if_pos (prefix_append _ _), drop_left]
  rw [if_pos (suffix_append _ _)]
  simp

theorem archiveSortKey_archiveName (stamped : Stamped timestamp suffix) :
    archiveSortKey (archiveName timestamp suffix) =
      toLex (timestamp, toLex (suffix, archiveName timestamp suffix)) := by
  have signed := Decimal.parseSigned_renderNum stamped.low stamped.high
  have plain : '_' ∉ Json.renderNum timestamp :=
    Decimal.not_mem_renderNum (by decide) (by decide)
  have few := stamped.few
  unfold archiveSortKey
  rw [stripArchive_archiveName]
  dsimp only
  split_ifs with first
  · rw [append_nil, Decimal.splitOnce_none plain, Option.getD_none]
    have zero : Decimal.parseUnsigned greatestSuffix ['0'] = some 0 := by decide
    rw [signed, zero, first]
    rfl
  · have unsigned : Decimal.parseUnsigned greatestSuffix (Nat.toDigits 10 suffix) = some suffix :=
      Decimal.parseUnsigned_toDigits (by unfold greatestSuffix; omega)
    rw [Decimal.splitOnce_append plain, Option.getD_some]
    rw [signed, unsigned]
    rfl

theorem archiveName_injective (stamped : Stamped timestamp suffix)
    (other : Stamped otherStamp otherSuffix)
    (same : archiveName timestamp suffix = archiveName otherStamp otherSuffix) :
    timestamp = otherStamp ∧ suffix = otherSuffix := by
  have keys := congrArg archiveSortKey same
  rw [archiveSortKey_archiveName stamped, archiveSortKey_archiveName other] at keys
  have pairs := Prod.mk.inj (toLex_inj.mp keys)
  exact ⟨pairs.1, (Prod.mk.inj (toLex_inj.mp pairs.2)).1⟩

theorem isArchive_archiveName :
    isArchive (archiveName timestamp suffix) = true := by
  unfold isArchive archiveName
  rw [Bool.and_eq_true, isPrefixOf_iff_prefix, isSuffixOf_iff_suffix]
  exact ⟨by rw [append_assoc]; exact prefix_append _ _, suffix_append _ _⟩

end

section

variable (codec : RecordCodec Record)

theorem frame_eq_encode (texts : List (List Char)) :
    frame texts = Utf8.encode (texts.flatMap fun text => text ++ ['\n']) := by
  induction texts with
  | nil => rfl
  | cons text texts ih =>
    have newline_eq : Utf8.encode ['\n'] = [newline] := rfl
    rw [frame_cons, ih, flatMap_cons]
    simp only [Utf8.encode, flatMap_append] at newline_eq ⊢
    rw [newline_eq]
    simp

theorem lines_joined (clean : ∀ text ∈ texts, Clean text) (rest : List Char) :
    lines ((texts.flatMap fun text => text ++ ['\n']) ++ rest) = texts ++ lines rest := by
  induction texts with
  | nil => rfl
  | cons text texts ih =>
    rw [flatMap_cons, append_assoc, append_assoc, singleton_append,
      lines_cons (clean text (by simp)), ih fun other member => clean other (by simp [member])]
    rfl

theorem readLine_text (record : Record) : readLine codec (codec.text record) = some record := by
  obtain ⟨first, head, solidFirst⟩ := codec.starts record
  obtain ⟨last, ends, solidLast⟩ := codec.ends record
  have written : codec.text record ≠ [] := by
    intro empty
    rw [empty] at head
    cases head
  rw [readLine, trim_eq_self solidFirst solidLast head ends, if_neg written, codec.read_text]

theorem readLines_texts (records : List Record) :
    (records.map codec.text).filterMap (readLine codec) = records := by
  induction records with
  | nil => rfl
  | cons record records ih =>
    rw [map_cons, filterMap_cons, readLine_text, ih]

theorem readRecords_frame (records : List Record) :
    readRecords codec (frame (records.map codec.text)) = some records := by
  have clean : ∀ text ∈ records.map codec.text, Clean text := by
    intro text member
    obtain ⟨record, _, rfl⟩ := mem_map.mp member
    exact codec.clean record
  have split := lines_joined clean []
  rw [append_nil] at split
  rw [readRecords, frame_eq_encode, Utf8.strict_encode, Option.map_some, split]
  have nothing : lines [] = [] := rfl
  rw [nothing, append_nil, readLines_texts]

end

structure Archive (Record : Type) where
  timestamp : Int
  suffix : Nat
  records : List Record

namespace Archive

def name (archive : Archive Record) : Text := archiveName archive.timestamp archive.suffix

def bytes (codec : RecordCodec Record) (archive : Archive Record) : List UInt8 :=
  frame (archive.records.map codec.text)

def file (codec : RecordCodec Record) (archive : Archive Record) : Text × List UInt8 :=
  (archive.name, archive.bytes codec)

def Before (left right : Archive Record) : Prop :=
  left.timestamp < right.timestamp ∨
    (left.timestamp = right.timestamp ∧ left.suffix < right.suffix)

def Named (archive : Archive Record) : Prop := Stamped archive.timestamp archive.suffix

structure Aged (archived : List (Archive Record)) : Prop where
  named : ∀ archive ∈ archived, archive.Named
  order : archived.Pairwise Before

variable {archived : List (Archive Record)}

theorem Aged.drop (aged : Aged archived) {count : Nat} : Aged (archived.drop count) :=
  ⟨fun archive member => aged.named archive (mem_of_mem_drop member),
    aged.order.sublist (drop_sublist count archived)⟩

theorem Aged.nodup (aged : Aged archived) : (archived.map name).Nodup := by
  rw [nodup_iff_pairwise_ne, pairwise_map]
  refine (pairwise_iff_forall_sublist.mpr ?_)
  intro left right both same
  have leftNamed := aged.named left (both.subset (by simp))
  have rightNamed := aged.named right (both.subset (by simp))
  obtain ⟨stamps, suffixes⟩ := archiveName_injective leftNamed rightNamed same
  have before := pairwise_iff_forall_sublist.mp aged.order both
  unfold Before at before
  omega

theorem Aged.sortArchives (aged : Aged archived) :
    sortArchives (archived.map name) = archived.map name := by
  apply List.Pairwise.insertionSort_eq
  rw [pairwise_map]
  refine (pairwise_iff_forall_sublist.mpr ?_)
  intro left right both
  have leftNamed := aged.named left (both.subset (by simp))
  have rightNamed := aged.named right (both.subset (by simp))
  have before := pairwise_iff_forall_sublist.mp aged.order both
  unfold name
  rw [archiveSortKey_archiveName leftNamed, archiveSortKey_archiveName rightNamed,
    Prod.Lex.toLex_le_toLex, Prod.Lex.toLex_le_toLex]
  rcases before with earlier | ⟨same, smaller⟩
  · exact Or.inl earlier
  · exact Or.inr ⟨same, Or.inl smaller⟩

theorem archivePaths_files (files : dir.files = archived.map (file codec)) :
    archivePaths dir = archived.map name := by
  unfold archivePaths
  rw [files, map_map]
  apply filter_eq_self.mpr
  intro path member
  obtain ⟨archive, _, rfl⟩ := mem_map.mp member
  exact isArchive_archiveName

variable {dir : Directory}

theorem Aged.contents (aged : Aged archived) (files : dir.files = archived.map (file codec))
    (member : archive ∈ archived) : dir.contents archive.name = some (archive.bytes codec) := by
  have unique := aged.nodup
  unfold Directory.contents
  rw [files]
  clear aged files
  induction archived with
  | nil => cases member
  | cons first rest ih =>
    rw [map_cons, List.find?_cons]
    rw [map_cons, nodup_cons] at unique
    by_cases same : first.name = archive.name
    · rcases mem_cons.mp member with rfl | later
      · simp [file]
      · exact absurd (same ▸ mem_map_of_mem later) unique.1
    · have later : archive ∈ rest := by
        rcases mem_cons.mp member with rfl | later
        · exact absurd rfl same
        · exact later
      have skipped : decide ((file codec first).1 = archive.name) = false :=
        decide_eq_false same
      rw [skipped]
      exact ih later unique.2

theorem Aged.jsonlFiles (aged : Aged archived) (files : dir.files = archived.map (file codec)) :
    jsonlFiles dir = archived.map (bytes codec) ++ dir.current.toList := by
  unfold Storage.jsonlFiles
  rw [archivePaths_files files, aged.sortArchives, filterMap_map]
  congr 1
  have each : ∀ archive ∈ archived, (dir.contents ∘ name) archive = some (archive.bytes codec) :=
    fun archive member => aged.contents files member
  rw [filterMap_congr each]
  simp

theorem Aged.cleanupArchives (aged : Aged archived)
    (files : dir.files = archived.map (file codec)) :
    (cleanupArchives dir backupCount).files =
      (archived.drop (archived.length - backupCount)).map (file codec) := by
  unfold Storage.cleanupArchives
  rw [archivePaths_files files]
  dsimp only
  rw [length_map, aged.sortArchives]
  split_ifs with few
  · rw [files, Nat.sub_eq_zero_of_le few, drop_zero]
  · dsimp only
    generalize archived.length - backupCount = count
    have unique := aged.nodup
    rw [files, filter_map]
    congr 1
    rw [← take_append_drop count archived, map_append, nodup_append] at unique
    obtain ⟨_, _, apart⟩ := unique
    have early : (archived.take count).filter ((fun file => decide (file.1 ∉
        (archived.map name).take count)) ∘ file codec) = [] := by
      rw [filter_eq_nil_iff]
      intro archive member
      rw [← map_take]
      simp only [Function.comp_apply, decide_eq_true_eq, not_not]
      exact mem_map_of_mem member
    have late : (archived.drop count).filter ((fun file => decide (file.1 ∉
        (archived.map name).take count)) ∘ file codec) = archived.drop count := by
      rw [filter_eq_self]
      intro archive member
      rw [← map_take]
      simp only [Function.comp_apply, decide_eq_true_eq]
      exact fun removed => apart _ removed _ (mem_map_of_mem member) rfl
    conv_lhs => rw [← take_append_drop count archived]
    rw [filter_append]
    simp only [take_append_drop]
    rw [early, late]
    rfl

end Archive

def unquoteFrom : Nat → Text → Option Text
  | 0, _ => none
  | fuel + 1, text =>
    if text = ['"'] then some []
    else if text.head? = some '"' then none
    else (Json.unescape text).bind fun (character, rest) =>
      (unquoteFrom fuel rest).map (character :: ·)

def unquote : Text → Option Text
  | '"' :: rest => unquoteFrom rest.length rest
  | _ => none

theorem unquoteFrom_escaped (text : Text) (enough : text.length < fuel) :
    unquoteFrom fuel (text.flatMap Json.escapeChar ++ ['"']) = some text := by
  induction text generalizing fuel with
  | nil =>
    obtain ⟨fuel, rfl⟩ := Nat.exists_eq_succ_of_ne_zero (Nat.ne_of_gt enough)
    simp [unquoteFrom]
  | cons character rest ih =>
    obtain ⟨fuel, rfl⟩ := Nat.exists_eq_succ_of_ne_zero
      (Nat.ne_of_gt (Nat.lt_of_le_of_lt (Nat.zero_le _) enough))
    rw [length_cons] at enough
    obtain ⟨first, others, shape, plain⟩ := Json.escapeChar_head
    have head : (Json.escapeChar character ++
        (rest.flatMap Json.escapeChar ++ ['"'])).head? = some first := by
      rw [shape]
      rfl
    have notQuote : Json.escapeChar character ++ (rest.flatMap Json.escapeChar ++ ['"']) ≠
        ['"'] := by
      intro same
      rw [same] at head
      exact plain (Option.some.inj head).symm
    rw [List.flatMap_cons, List.append_assoc, unquoteFrom, if_neg notQuote,
      if_neg (by rw [head]; simpa using plain), Json.unescape_escapeChar, Option.bind_some]
    dsimp only
    rw [ih (by omega)]
    rfl

def stringCodec : RecordCodec Text where
  text := Json.quote
  read := unquote
  clean text := Json.quote_printable
  starts text := ⟨'"', rfl, by decide⟩
  ends text := ⟨'"', by rw [Json.quote, ← cons_append, List.getLast?_concat], by decide⟩
  read_text text := by
    rw [Json.quote, unquote]
    apply unquoteFrom_escaped
    have longer : text.length ≤ (text.flatMap Json.escapeChar).length := by
      induction text with
      | nil => simp
      | cons character rest ih =>
        obtain ⟨first, others, shape, _⟩ := Json.escapeChar_head
        rw [flatMap_cons, length_append, shape, length_cons, length_cons]
        omega
    rw [length_append, length_singleton]
    omega

end AgentClaimNetwork.Storage
