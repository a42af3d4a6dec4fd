import Pergamon.Rules
import Pergamon.Templates

/-!
Plans for exported files. The Markdown export makes a file of each item, named by a template, with
links to the sources of its highlights; the Obsidian export makes a file of each source with highlights
and of each bookmark. A plan is made without touching the filesystem. Names and paths are lists of
characters.

Fields of items, highlights and notes that no export shows are left out.
-/
namespace Pergamon.Export

/-! ### Items -/

structure ContentItem where
  id : Uuid
  url : Option String
  title : String
  author : Option String
  content_type : ContentType
  status : DocumentStatus
  excerpt : Option String
  created_at : Date
  updated_at : Date

structure HighlightMeta where
  source_item_id : Option Uuid
  quote_text : String
  note : Option String
  color : Option String

structure Note where
  body : String
  created_at : Date

/-- A content item with all related data. -/
structure ExportItem where
  item : ContentItem
  tags : List String
  highlights : List HighlightMeta
  notes : List Note

/-- What a template can show of an item. -/
def ContentItem.shown (item : ContentItem) : Shown := ⟨item.title.toList,item.id,item.created_at,item.content_type⟩

/-! ### Frontmatter -/

inductive FrontmatterValue where
  | Str (s : String)
  | List (items : List String)
  | Int (n : ℤ)

/-- Escape a text inside double quotes. -/
def yaml_escape (s : String) : String :=
  String.ofList (s.toList.flatMap (fun c => match c with
    | '\\' => ['\\','\\']
    | '"' => ['\\','"']
    | '\n' => ['\\','n']
    | '\r' => ['\\','r']
    | '\t' => ['\\','t']
    | c => [c]))

def quoted (s : String) : String := "\"" ++ yaml_escape s ++ "\""

def FrontmatterValue.text : FrontmatterValue → String
  | .Str s => quoted s
  | .List [] => "[]"
  | .List items => "[" ++ ", ".intercalate (items.map quoted) ++ "]"
  | .Int n => toString n

/-- Render a frontmatter block. -/
def render_frontmatter (pairs : List (String × FrontmatterValue)) : String :=
  "---\n" ++ String.join (pairs.map (fun pair => pair.1 ++ ": " ++ pair.2.text ++ "\n")) ++ "---\n"

/-! ### Texts of notes -/

def format_date (d : Date) : String := String.ofList d.text

/-- The domain of a URL. -/
def extract_domain (url : String) : String :=
  let rest := if "https://".toList.isPrefixOf url.toList then url.toList.drop 8
    else if "http://".toList.isPrefixOf url.toList then url.toList.drop 7 else url.toList
  String.ofList (rest.takeWhile (· ≠ '/'))

/-- A text that is written if there is a value. -/
def with_value {α : Type} (value : Option α) (text : α → String) : String := (value.map text).getD ""

def note_line (note : Note) : String := "- " ++ note.body ++ " *(" ++ format_date note.created_at ++ ")*\n\n"

def notes_section (notes : List Note) : String :=
  if notes = [] then "" else "## Notes\n\n" ++ String.join (notes.map note_line)

/-- Spaces of a tag become hyphens. -/
def hyphenated (tag : String) : String := String.ofList (tag.toList.map (fun c => if c = ' ' then '-' else c))

/-! ### The Markdown export -/

inductive TagFormat where
  | YamlOnly
  | Hashtag
  | Both
  deriving DecidableEq

structure MarkdownExportConfig where
  slug_template : SlugTemplate
  backlinks : Bool
  tag_format : TagFormat

/-- A rendered file. -/
structure RenderedFile where
  relative_path : List Char
  content : String
  pergamon_id : Uuid

/-- A target of links: its title, and its filename without `.md`. -/
structure BacklinkTarget where
  title : String
  stem : List Char

def stem (config : MarkdownExportConfig) (item : ContentItem) : List Char :=
  config.slug_template.render item.title.toList item.id item.created_at item.content_type.as_str.toList

def filename (config : MarkdownExportConfig) (item : ContentItem) : List Char :=
  config.slug_template.render_filename item.title.toList item.id item.created_at item.content_type.as_str.toList

/-- Items by their identifiers, if there are to be links. The last of an identifier counts. -/
def backlink_index (config : MarkdownExportConfig) (items : List ExportItem) (id : Uuid) : Option BacklinkTarget :=
  if config.backlinks then
    ((items.filter (fun ei => ei.item.id = id)).getLast?).map (fun ei => ⟨ei.item.title,stem config ei.item⟩)
  else none

section
variable {α : Type}

/-- What is left of a list after an element if each is left out that is like the one that is kept before it. -/
def dedup_after (same : α → α → Bool) : α → List α → List α
  | _,[] => []
  | a,b :: rest => if same b a then dedup_after same a rest else b :: dedup_after same b rest

/-- `Vec::dedup_by`. -/
def dedup_by (same : α → α → Bool) : List α → List α
  | [] => []
  | a :: rest => a :: dedup_after same a rest

end

/-- The sources of an item's highlights, other than the item. -/
def sources (ei : ExportItem) : List Uuid :=
  ei.highlights.filterMap (fun highlight => highlight.source_item_id.filter (fun source_id => source_id ≠ ei.item.id))

/-- The targets of an item's links, by their stems and each stem once. -/
def related (index : Uuid → Option BacklinkTarget) (ei : ExportItem) : List BacklinkTarget :=
  dedup_by (fun a b => a.stem = b.stem) (((sources ei).filterMap index).mergeSort (fun a b => a.stem ≤ b.stem))

def related_section (targets : List BacklinkTarget) : String :=
  if targets.isEmpty then ""
  else "## Related\n\n" ++ String.join (targets.map (fun target => "- [[" ++ String.ofList target.stem ++ "|" ++ target.title ++ "]]\n")) ++ "\n"

section
variable [Unicode]

def tag_slug (tag : String) : String := Unicode.to_lowercase (hyphenated tag)

def build_frontmatter_pairs (ei : ExportItem) : List (String × FrontmatterValue) :=
  [("pergamon_id",.Str (String.ofList ei.item.id.to_string)),("export_schema",.Int 1),("title",.Str ei.item.title),
    ("content_type",.Str ei.item.content_type.as_str)] ++
  (ei.item.author.map (fun author => ("author",FrontmatterValue.Str author))).toList ++
  (ei.item.url.map (fun url => ("url",FrontmatterValue.Str url))).toList ++
  (if ei.tags = [] then [] else [("tags",.List (ei.tags.map tag_slug))]) ++
  [("status",.Str ei.item.status.as_str)] ++
  (if ei.highlights.isEmpty then [] else [("highlight_count",.Int ei.highlights.length)]) ++
  [("created",.Str (format_date ei.item.created_at)),("updated",.Str (format_date ei.item.updated_at))]

/-- A highlight, with `> ` before every line. -/
def highlight_text (highlight : HighlightMeta) : String :=
  String.join ((lines highlight.quote_text.toList).map (fun line => "> " ++ String.ofList line ++ "\n")) ++ "\n" ++
  with_value highlight.note (fun note => "*" ++ note ++ "*\n\n") ++
  with_value highlight.color (fun color => "Color: " ++ color ++ "\n\n") ++ "---\n\n"

/-- Render a single item with its frontmatter. -/
def render_item (config : MarkdownExportConfig) (ei : ExportItem) (index : Uuid → Option BacklinkTarget) : String :=
  render_frontmatter (build_frontmatter_pairs ei) ++ "\n# " ++ ei.item.title ++ "\n\n" ++
  with_value ei.item.author (fun author => "**Author:** " ++ author ++ "\n") ++
  with_value ei.item.url (fun url => "**URL:** [" ++ extract_domain url ++ "](" ++ url ++ ")\n") ++
  "**Type:** " ++ ei.item.content_type.as_str ++ "\n" ++ "**Status:** " ++ ei.item.status.as_str ++ "\n\n" ++
  (if config.tag_format ≠ .YamlOnly ∧ ei.tags ≠ [] then " ".intercalate (ei.tags.map (fun tag => "#" ++ tag_slug tag)) ++ "\n\n" else "") ++
  with_value ei.item.excerpt (fun excerpt => "> " ++ excerpt ++ "\n\n") ++
  (if ei.highlights.isEmpty then "" else "## Highlights\n\n" ++ String.join (ei.highlights.map highlight_text)) ++
  notes_section ei.notes ++
  (if config.backlinks then related_section (related index ei) else "")

end

/-- `str::trim_end_matches` with `.md`, on a text that is read backwards. -/
def trim_md_back : List Char → List Char
  | 'd' :: 'm' :: '.' :: rest => trim_md_back rest
  | l => l

def trim_md (l : List Char) : List Char := (trim_md_back l.reverse).reverse

/-- A filename with the beginning of an identifier. -/
def suffixed (filename : List Char) (id : Uuid) : List Char := trim_md filename ++ "--".toList ++ id.short ++ ".md".toList

section
variable [Unicode]

/-- The files of items, with the filenames that were seen and how often. -/
def plan_files (config : MarkdownExportConfig) (index : Uuid → Option BacklinkTarget) :
    (List Char → Option ℕ) → List ExportItem → List RenderedFile
  | _,[] => []
  | seen,ei :: rest =>
    let natural := filename config ei.item
    let count := (seen natural).getD 0 + 1
    -- The template tells files apart if it shows the identifier.
    let counted := if config.slug_template.has_id then seen else Function.update seen natural (some count)
    let name := if ¬ config.slug_template.has_id ∧ 1 < count then suffixed natural ei.item.id else natural
    let seen := if (counted name).isNone then Function.update counted name (some 0) else counted
    ⟨name,render_item config ei index,ei.item.id⟩ :: plan_files config index seen rest

/-- Plan a Markdown export. -/
def plan_markdown_export (config : MarkdownExportConfig) (items : List ExportItem) : List RenderedFile :=
  plan_files config (backlink_index config items) (fun _ => none) items

end

/-! ### The Obsidian export -/

/-- A source document with its highlights. -/
structure SourceBundle where
  source : ContentItem
  tags : List String
  highlights : List HighlightMeta
  notes : List Note

/-- A bookmark without highlights. -/
structure BookmarkBundle where
  item : ContentItem
  tags : List String
  description : Option String

structure ManifestItem where
  id : String
  item_type : String
  title : String
  url : Option String
  author : Option String
  tags : List String
  highlight_count : ℕ
  file_path : String
  created_at : String
  updated_at : String

structure Manifest where
  schema_version : ℕ
  pergamon_version : String
  exported_at : String
  root_folder : String
  item_count : ℕ
  items : List ManifestItem

structure ExportConfig where
  folder_name : String
  pergamon_version : String

structure ExportPlan where
  files : List RenderedFile
  manifest : Manifest

/-- Format a stable filename. -/
def stable_filename (title : List Char) (id : Uuid) : List Char := slugify title 60 ++ "--".toList ++ id.short ++ ".md".toList

/-- `Path::join` with a part that is relative. -/
def join_path (base part : List Char) : List Char :=
  if base = [] ∨ base.getLast? = some '/' then base ++ part else base ++ '/' :: part

/-- Spaces become hyphens, and ASCII letters are in lower case. -/
def obsidian_tags (tags : List String) : List String :=
  tags.map (fun tag => String.ofList (tag.toList.map (fun c => if c = ' ' then '-' else to_ascii_lowercase c)))

/-- The frontmatter of a note, with the number of highlights if it is shown. -/
def note_pairs (item : ContentItem) (pergamon_type : String) (tags : List String) (highlight_count : Option ℕ) :
    List (String × FrontmatterValue) :=
  [("pergamon_id",.Str (String.ofList item.id.to_string)),("pergamon_type",.Str pergamon_type),("title",.Str item.title)] ++
  (item.author.map (fun author => ("author",FrontmatterValue.Str author))).toList ++
  (item.url.map (fun url => ("url",FrontmatterValue.Str url))).toList ++
  (if tags = [] then [] else [("tags",.List (obsidian_tags tags)),("pergamon_tags",.List tags)]) ++
  [("status",.Str item.status.as_str)] ++
  (highlight_count.map (fun count => ("highlight_count",FrontmatterValue.Int count))).toList ++
  [("created",.Str (format_date item.created_at)),("updated",.Str (format_date item.updated_at))]

def source_highlight_text (highlight : HighlightMeta) : String :=
  "> " ++ highlight.quote_text ++ "\n\n" ++ with_value highlight.note (fun note => "*Note: " ++ note ++ "*\n\n") ++ "---\n\n"

/-- Render a source document note with all its highlights. -/
def render_source_note (bundle : SourceBundle) : String :=
  render_frontmatter (note_pairs bundle.source bundle.source.content_type.as_str bundle.tags (some bundle.highlights.length)) ++
  "\n# " ++ bundle.source.title ++ "\n\n" ++
  with_value bundle.source.author (fun author => "**Author:** " ++ author ++ "\n") ++
  with_value bundle.source.url (fun url => "**URL:** [" ++ extract_domain url ++ "](" ++ url ++ ")\n") ++
  "**Status:** " ++ bundle.source.status.as_str ++ "\n\n" ++
  (if bundle.highlights.isEmpty then "" else "## Highlights\n\n" ++ String.join (bundle.highlights.map source_highlight_text)) ++
  notes_section bundle.notes

/-- Render a bookmark note. An excerpt stands in for a description. -/
def render_bookmark_note (bundle : BookmarkBundle) : String :=
  render_frontmatter (note_pairs bundle.item "bookmark" bundle.tags none) ++ "\n# " ++ bundle.item.title ++ "\n\n" ++
  with_value bundle.item.url (fun url => "**URL:** [" ++ extract_domain url ++ "](" ++ url ++ ")\n") ++
  "**Status:** " ++ bundle.item.status.as_str ++ "\n\n" ++
  with_value (bundle.description.orElse (fun _ => bundle.item.excerpt)) (fun text => "> " ++ text ++ "\n\n")

def note_path (config : ExportConfig) (folder : String) (item : ContentItem) : List Char :=
  join_path (join_path config.folder_name.toList folder.toList) (stable_filename item.title.toList item.id)

/-- An entry of the manifest; paths have forward slashes. -/
def manifest_item (item : ContentItem) (item_type : String) (tags : List String) (highlight_count : ℕ) (path : List Char) : ManifestItem :=
  ⟨String.ofList item.id.to_string,item_type,item.title,item.url,item.author,tags,highlight_count,
    String.ofList (path.map (fun c => if c = '\\' then '/' else c)),format_date item.created_at,format_date item.updated_at⟩

/-- Plan an export at a time. -/
def plan_export (now : String) (config : ExportConfig) (sources : List SourceBundle) (bookmarks : List BookmarkBundle) : ExportPlan :=
  let files := sources.map (fun bundle => ⟨note_path config "Highlights" bundle.source,render_source_note bundle,bundle.source.id⟩) ++
    bookmarks.map (fun bundle => ⟨note_path config "Bookmarks" bundle.item,render_bookmark_note bundle,bundle.item.id⟩)
  let items := sources.map (fun bundle => manifest_item bundle.source "highlight-source" bundle.tags bundle.highlights.length
      (note_path config "Highlights" bundle.source)) ++
    bookmarks.map (fun bundle => manifest_item bundle.item "bookmark" bundle.tags 0 (note_path config "Bookmarks" bundle.item))
  ⟨files,⟨1,config.pergamon_version,now,config.folder_name,files.length,items⟩⟩

end Pergamon.Export
