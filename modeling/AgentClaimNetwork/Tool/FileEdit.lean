import AgentClaimNetwork.Tool.TextPage

/-!
`src/tool/file.rs`: `file_read`, `file_patch` and `file_write` on one file, with the read state
that decides what a caller may change.
-/

namespace AgentClaimNetwork.Tool

open Library LineLog

/-- `str::match_indices` from the byte at `index` on; `skip` bytes still belong to a match. -/
def matchIndicesFrom (old : List UInt8) : Nat → Nat → List UInt8 → List Nat
  | _, _, [] => []
  | skip + 1, index, _ :: rest => matchIndicesFrom old skip (index + 1) rest
  | 0, index, byte :: rest =>
    if old.isPrefixOf (byte :: rest) then
      index :: matchIndicesFrom old (old.length - 1) (index + 1) rest
    else matchIndicesFrom old 0 (index + 1) rest

def matchIndices (text old : List UInt8) : List Nat := matchIndicesFrom old 0 0 text

/-- `str::replace`; `skip` bytes still belong to a match. -/
def replaceFrom (old new : List UInt8) : Nat → List UInt8 → List UInt8
  | _, [] => []
  | skip + 1, _ :: rest => replaceFrom old new skip rest
  | 0, byte :: rest =>
    if old.isPrefixOf (byte :: rest) then new ++ replaceFrom old new (old.length - 1) rest
    else byte :: replaceFrom old new 0 rest

def splice (before new : List UInt8) (start stop : Nat) : List UInt8 :=
  before.take start ++ new ++ before.drop stop

structure Digest where
  sha256 : List UInt8 → Text
  injective : ∀ left right, sha256 left = sha256 right → left.length = right.length →
    left = right

def Digest.revision (digest : Digest) (content : List UInt8) : ContentRevision :=
  ⟨digest.sha256 content, content.length⟩

theorem Digest.revision_injective (digest : Digest)
    (same : digest.revision left = digest.revision right) : left = right := by
  simp only [Digest.revision, ContentRevision.mk.injEq] at same
  exact digest.injective left right same.1 same.2

structure ToolRegistry where
  fileEditAuthorityEnabled : Bool
  delegationChild : Bool

structure ToolDispatchContext where
  currentSessionId : Option Text
  currentTurnId : Option Text
  cancelled : Bool

def fileReadStateScope (registry : ToolRegistry) (context : ToolDispatchContext) :
    Option ReadStateScope :=
  if registry.fileEditAuthorityEnabled = false then none
  else
    match context.currentSessionId with
    | none => none
    | some session =>
      if registry.delegationChild then
        context.currentTurnId.map fun turn => ⟨some session, some turn⟩
      else some ⟨some session, none⟩

def ReadEvidence.knownRanges (digest : Digest) (path : Text) (text : List UInt8)
    (migration : CoverageMigration) : ReadEvidence where
  path := path
  revision := digest.revision text
  totalLines := logicalLineCount text
  endsWithNewline := text.getLast? = some newline
  ranges := migration.ranges
  complete := migration.complete

/-- The file and the read state; `none` where there is no file. -/
structure Workspace where
  file : Option (List UInt8)
  inner : Inner

variable (registry : ToolRegistry) (digest : Digest) (path : Text)

variable (context : ToolDispatchContext)

def evaluateFileReadState (content : List UInt8) (inner : Inner) : ReadStateVerdict × Inner :=
  match fileReadStateScope registry context with
  | none => (.missing, inner)
  | some scope => evaluate inner scope path (digest.revision content)

def activateFileReadEvidence (evidence : ReadEvidence) (inner : Inner) : Inner :=
  match fileReadStateScope registry context with
  | none => inner
  | some scope => record inner scope evidence

def clearFilePathState (inner : Inner) : Inner :=
  match fileReadStateScope registry context with
  | none => inner
  | some scope => clearPath inner scope path

inductive FileReadOutcome
  | invalidArgs
  | ioError
  | lineTooLong (line : Nat)
  | page (page : TextPage)

def fileRead (request : TextPageRequest) (workspace : Workspace) : FileReadOutcome × Workspace :=
  if request.start = 0 ∨ request.count = 0 then (.invalidArgs, workspace)
  else
    match workspace.file with
    | none => (.ioError, workspace)
    | some file =>
      match readTextPage (digest.revision file) path file request with
      | none => (.ioError, workspace)
      | some (.lineTooLong line) => (.lineTooLong line, workspace)
      | some (.page page) =>
        (.page page,
          { workspace with
            inner := match page.evidence with
              | some evidence =>
                activateFileReadEvidence registry context evidence workspace.inner
              | none => workspace.inner })

/-- `expected` is what the caller read, `none` for no file. -/
def writeTextAtomicIfUnchanged (file : Option (List UInt8)) (content : List UInt8)
    (expected : Option (List UInt8)) : Option (List UInt8) × Bool :=
  if file = expected then (some content, true) else (file, false)

inductive EditOutcome
  | invalidArgs
  | ioError
  | interrupted
  | missingFile
  | noMatch
  | severalMatches
  /-- The lines to read first, none for the whole file. -/
  | patchPermission (required : Option (Nat × Nat)) (stale : Bool)
  | writePermission (stale : Bool) (totalLines : Nat)
  | staleWrite
  | noChange (bytesWritten : Nat)
  | success (bytesWritten replacements : Nat)

/-- The end of `file_patch` and `file_write`: writes the file unless it changed or the call was
cancelled, and records what is known of the new text. -/
def commitEdit (after : List UInt8)
    (migration : Option CoverageMigration) (replacements : Nat) (workspace : Workspace)
    (expected : Option (List UInt8)) : EditOutcome × Workspace :=
  if context.cancelled then (.interrupted, workspace)
  else
    match writeTextAtomicIfUnchanged workspace.file after expected with
    | (file, false) =>
      (.staleWrite, ⟨file, clearFilePathState registry path context workspace.inner⟩)
    | (file, true) =>
      (.success after.length replacements,
        ⟨file, match migration with
          | some migration => activateFileReadEvidence registry context
              (.knownRanges digest path after migration) workspace.inner
          | none => workspace.inner⟩)

structure FilePatchArgs where
  oldContent : List UInt8
  newContent : List UInt8
  replaceAll : Bool

def suggestedReadRange (text : List UInt8) (editStart editEnd : Nat) : Nat × Nat :=
  let lines := lineByteSpans text
  expandRequiredRange (affectedLines lines lines.length editStart editEnd) lines.length

/-- `file_patch` once it has found the first match at `start` and, with authority enabled,
a fresh read state. -/
def patchAt (args : FilePatchArgs) (before : List UInt8)
    (start replacements : Nat) (authority : Option ReadAuthority) (workspace : Workspace) :
    EditOutcome × Workspace :=
  let stop := start + args.oldContent.length
  if args.replaceAll then
    if authority.any fun authority => !authority.complete then
      (.patchPermission none false, workspace)
    else
      let after := replaceFrom args.oldContent args.newContent 0 before
      commitEdit registry digest path context after (authority.map fun _ => .whole after)
        replacements workspace (some before)
  else
    let after := splice before args.newContent start stop
    match authority with
    | none => commitEdit registry digest path context after none 1 workspace (some before)
    | some authority =>
      match migrateEditCoverage before after authority start stop args.newContent.length with
      | .error required => (.patchPermission (some required) false, workspace)
      | .ok migration =>
        commitEdit registry digest path context after (some migration) 1 workspace
          (some before)

def filePatch (args : FilePatchArgs) (workspace : Workspace) : EditOutcome × Workspace :=
  if args.oldContent = [] then (.invalidArgs, workspace)
  else
    match workspace.file with
    | none => (.missingFile, workspace)
    | some before =>
      if (Utf8.strict before).isNone then (.ioError, workspace)
      else
        match matchIndices before args.oldContent with
        | [] => (.noMatch, workspace)
        | start :: others =>
          if args.replaceAll = false ∧ others ≠ [] then (.severalMatches, workspace)
          else if registry.fileEditAuthorityEnabled then
            let suggested := suggestedReadRange before start (start + args.oldContent.length)
            let required := if args.replaceAll then none else some suggested
            match evaluateFileReadState registry digest path context before
                workspace.inner with
            | (.fresh authority, inner) =>
              patchAt registry digest path context args before start (1 + others.length)
                (some authority) { workspace with inner := inner }
            | (.missing, inner) =>
              (.patchPermission required false, { workspace with inner := inner })
            | (.stale, inner) =>
              (.patchPermission required true, { workspace with inner := inner })
          else patchAt registry digest path context args before start (1 + others.length)
            none workspace

inductive WriteMode
  | overwrite
  | append
  | prepend
deriving DecidableEq

variable (mode : WriteMode)

def WriteMode.apply (before content : List UInt8) : List UInt8 :=
  match mode with
  | .overwrite => content
  | .append => before ++ content
  | .prepend => content ++ before

def WriteMode.authorized (authority : ReadAuthority) : Bool :=
  match mode with
  | .append => authority.hasEof
  | .overwrite | .prepend => authority.complete

/-- `file_write` on a file that exists, with a fresh read state. -/
def writeExisting (content before : List UInt8) (authority : ReadAuthority) (workspace : Workspace) :
    EditOutcome × Workspace :=
  if mode.authorized authority = false then
    (.writePermission false authority.totalLines, workspace)
  else
    let after := mode.apply before content
    if before = after then (.noChange before.length, workspace)
    else if authority.complete ∨ mode ≠ .append then
      commitEdit registry digest path context after (some (.whole after)) 1 workspace (some before)
    else
      match migrateEditCoverage before after authority before.length before.length
          (after.length - before.length) with
      | .ok migration =>
        commitEdit registry digest path context after (some migration) 1 workspace (some before)
      | .error _ =>
        (.writePermission false authority.totalLines,
          { workspace with inner := clearFilePathState registry path context workspace.inner })

def fileWrite (content : List UInt8) (workspace : Workspace) : EditOutcome × Workspace :=
  match workspace.file with
  | none =>
    let after := mode.apply [] content
    commitEdit registry digest path context after
      (if registry.fileEditAuthorityEnabled then some (.whole after) else none) 1 workspace none
  | some before =>
    if (Utf8.strict before).isNone then (.ioError, workspace)
    else if registry.fileEditAuthorityEnabled then
      match evaluateFileReadState registry digest path context before workspace.inner with
      | (.fresh authority, inner) =>
        writeExisting registry digest path context mode content before authority
          { workspace with inner := inner }
      | (.missing, inner) =>
        (.writePermission false (logicalLineCount before), { workspace with inner := inner })
      | (.stale, inner) =>
        (.writePermission true (logicalLineCount before), { workspace with inner := inner })
    else
      let after := mode.apply before content
      if before = after then (.noChange before.length, workspace)
      else commitEdit registry digest path context after none 1 workspace (some before)

end AgentClaimNetwork.Tool
