import BorrowIR.Decode.Node

/-!
# Decoding source places and names

The file table of a crate is decoded first and handed to whatever holds a span: a span names its
file by an identifier, which is resolved at once.
-/

namespace BorrowIR

open Decode Outcome

/-- The file behind an identifier, which has to be listed. -/
def FileTable.resolve (table : FileTable) (id : FileId) : Outcome FileName :=
  match table.get? id with
  | some name => pure name
  | none => fail (.unknownFile id.text)

/-- An identifier of a file. -/
def FileId.decode (v : Json) : Outcome FileId :=
  within "file_id" do
    match ← variant v with
    | ⟨"LocalId", some payload⟩ => .localFile <$> wrapped entityId payload
    | ⟨"VirtualId", some payload⟩ => .virtualFile <$> wrapped entityId payload
    | ⟨tag, _⟩ => fail (.unknownVariant "FileId" tag)

/-- What a file is. -/
def FileName.decode (v : Json) : Outcome FileName :=
  within "file_name" do
    match ← variant v with
    | ⟨"Local", some payload⟩ => .path <$> wrapped string payload
    | ⟨"Virtual", some payload⟩ => .virtual <$> wrapped string payload
    | ⟨tag, _⟩ => fail (.unknownVariant "FileName" tag)

/-- Adds files to a table one after the other. -/
def FileTable.insertAll : FileTable → List (FileId × FileName) → Outcome FileTable
  | table, [] => pure table
  | table, (id, name) :: entries =>
    match table.insert id name with
    | .ok table => insertAll table entries
    | .error first => fail (.violation (.repeatedFile id first))

/-- The list of the files of a crate. -/
def FileTable.decode (v : Json) : Outcome FileTable :=
  within "id_to_file" do
    let entries ← list (fun entry => do
      let (id, name) ← components 2 entry
      return (← FileId.decode id, ← FileName.decode name)) v
    let table ← insertAll .empty entries
    report (.fileTable table.size)
    return table

/-- A line and a column. -/
def Loc.decode (v : Json) : Outcome Loc :=
  within "loc" do
    let (line, col) ← record ["line", "col"] v
    return { line := ← natural line, col := ← natural col }

/-- A span; its file is looked up before its ends are decoded. -/
def Span.decode (table : FileTable) (v : Json) : Outcome Span :=
  within "span" do
    let (file, start, stop) ← record ["file_id", "beg", "end"] v
    let file ← table.resolve (← FileId.decode file)
    return { file, start := ← Loc.decode start, stop := ← Loc.decode stop }

/-- A span, and the span of the code that was expanded. -/
def Provenance.decode (table : FileTable) (v : Json) : Outcome Provenance :=
  within "meta" do
    let (span, generatedFrom) ← record ["span", "generated_from_span"] v
    return {
      span := ← Span.decode table span
      generatedFrom := ← optional (Span.decode table) generatedFrom }

/-- A segment of a name. -/
def PathElem.decode (v : Json) : Outcome PathElem := do
  match ← variant v with
  | ⟨"Ident", some payload⟩ => .ident <$> wrapped string payload
  | ⟨"Disambiguator", some payload⟩ => .disambiguator <$> wrapped natural payload
  | ⟨tag, _⟩ => fail (.unknownVariant "PathElem" tag)

/-- A name. -/
def Name.decode (v : Json) : Outcome Name :=
  within "name" do return ⟨← list PathElem.decode v⟩

end BorrowIR
