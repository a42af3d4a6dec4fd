import Pergamon.ImportRuns
import Pergamon.OutlineVisits

/-!
Imports that are repeated. Whatever was imported before, an importer that goes over its list a second
time finds all that it has left the first time, whether it knows it by a url, by a key, by the body of
a note or by the name of a folder (`imports_repeat`).
-/
namespace Pergamon
open Fallible Library

/-- What imports make of a library, with time going by. -/
inductive Imported [TimeCrate] [UrlCrate] [Unicode] (db : ImportDb) : ImportDb → Prop where
  | start : Imported db db
  | later {db' : ImportDb} (now : OffsetDateTime) : Imported db db' → Imported db { db' with library := { db'.library with now := now } }
  | kindle {db' : ImportDb} (dry_run enable_review : Bool) (path : String) (clippings : List Kindle.KindleClipping) :
    Imported db db' → Imported db (leaves (import_kindle dry_run enable_review path clippings db'))
  | readwise {db' : ImportDb} (dry_run enable_review : Bool) (path : String) (items : List ReadwiseItem) :
    Imported db db' → Imported db (leaves (import_readwise dry_run enable_review path items db'))
  | raindrop {db' : ImportDb} (dry_run : Bool) (path : String) (items : List RaindropItem) :
    Imported db db' → Imported db (leaves (import_raindrop dry_run path items db'))
  | pocket {db' : ImportDb} (dry_run : Bool) (path : String) (items : List PocketItem) :
    Imported db db' → Imported db (leaves (import_pocket dry_run path items db'))

section
variable [TimeCrate] [UrlCrate] [Unicode] {db db' : ImportDb}

/-- Ids that are drawn stay new, and no two items ever share a url. -/
theorem Imported.sound (imported : Imported db db') (fresh : db.Fresh) (indexed : db.library.Indexed) : db'.Fresh ∧ db'.library.Indexed := by
  have keeps {mid last : ImportDb} (sound : mid.Fresh ∧ mid.library.Indexed) (grown : ImportDb.Grown mid last) : last.Fresh ∧ last.library.Indexed :=
    ⟨sound.1.grown grown,grown.library.indexed sound.2⟩
  induction imported with
  | start => exact ⟨fresh,indexed⟩
  | later now _ ih => exact ⟨⟨ih.1.once,ih.1.new⟩,⟨ih.2.ids,ih.2.urls⟩⟩
  | kindle dry_run enable_review path clippings _ ih =>
    exact keeps ih (ImportDb.import_highlights_grown ih.1 ih.2 .Kindle dry_run enable_review path _)
  | readwise dry_run enable_review path items _ ih =>
    exact keeps ih (ImportDb.import_highlights_grown ih.1 ih.2 .Readwise dry_run enable_review path _)
  | raindrop dry_run path items _ ih => exact keeps ih (ImportDb.import_bookmarks_grown ih.1 .Raindrop dry_run path _)
  | pocket dry_run path items _ ih => exact keeps ih (ImportDb.import_bookmarks_grown ih.1 .Pocket dry_run path _)

/-- An import that is run again on the same list changes nothing but the full-text index and the log,
    and no two items ever share a url. -/
theorem imports_repeat (fresh : db.Fresh) (indexed : db.library.Indexed) (imported : Imported db db') {feeds : FeedTables}
    (fresh' : feeds.Fresh) (keyed : feeds.Keyed) (clocked : feeds.Clocked) :
    (∀ enable_review path clippings, ImportDb.Repeats (import_kindle false enable_review path clippings) db') ∧
      (∀ enable_review path items, ImportDb.Repeats (import_readwise false enable_review path items) db') ∧
      (∀ path items, ImportDb.Repeats (import_raindrop false path items) db') ∧
      (∀ path items, ImportDb.Repeats (import_pocket false path items) db') ∧
      (∀ outlines, (leaves (Cli.import_opml false outlines (leaves (Cli.import_opml false outlines feeds)))).feed_folders =
          (leaves (Cli.import_opml false outlines feeds)).feed_folders ∧
        (leaves (Cli.import_opml false outlines (leaves (Cli.import_opml false outlines feeds)))).feeds =
          (leaves (Cli.import_opml false outlines feeds)).feeds) ∧
      (db'.library.content_items.filterMap ItemRow.url).Nodup := by
  obtain ⟨fresh'',indexed'⟩ := imported.sound fresh indexed
  refine ⟨?_,?_,?_,?_,?_,indexed'.urls⟩
  · intro enable_review path clippings
    exact ImportDb.import_highlights_repeats fresh'' indexed' .Kindle enable_review path _
  · intro enable_review path items
    exact ImportDb.import_highlights_repeats fresh'' indexed' .Readwise enable_review path _
  · intro path items
    exact ImportDb.import_bookmarks_repeats fresh'' indexed' .Raindrop path _
  · intro path items
    exact ImportDb.import_bookmarks_repeats fresh'' indexed' .Pocket path _
  · intro outlines
    exact FeedTables.import_opml_again fresh' keyed clocked outlines

end

/-- One url that is parsed. -/
@[reducible] def rootUrls : UrlCrate where
  parse raw := if raw = "https://a/" then .ok ⟨"https","","a",none,"/",none,none⟩ else .error "relative URL without a base"
  to_string u := u.scheme ++ "://" ++ u.host ++ u.path
  query_pairs _ := []
  stored_query query := query

/-- A new library. -/
def new_library : ImportDb :=
  ⟨⟨[],[],[],[],[],[],[],[],[],[],[],[],⟨0,0⟩,fun n => String.ofList (List.replicate (n + 1) 'u')⟩,[],[],[]⟩

theorem new_library_fresh : new_library.Fresh := by
  constructor
  · intro m n same
    simpa [new_library] using congrArg String.length same
  · intro n inside
    simp [new_library,ImportDb.ids,Library.ids] at inside

/-- A bookmark that is listed twice. -/
def listed_twice : List RaindropItem :=
  [⟨"1","One",none,none,"https://a/",some "News",["x"],none,none,[]⟩,⟨"2","Two",none,none,"https://a/",none,["y"],none,none,[]⟩]

theorem imports_repeat_twice :
    ImportDb.Repeats (@import_raindrop FeedTables.lengthTimes plainUnicode rootUrls false "raindrop.csv" listed_twice) new_library := by
  have sound := FeedTables.one_folder_sound none
  have indexed : new_library.library.Indexed := ⟨List.nodup_nil,List.nodup_nil⟩
  have keyed : (FeedTables.one_folder none).Keyed := ⟨List.nodup_nil,List.nodup_nil⟩
  have begun := @Imported.start FeedTables.lengthTimes rootUrls plainUnicode new_library
  have all := @imports_repeat FeedTables.lengthTimes rootUrls plainUnicode new_library new_library new_library_fresh indexed begun
    (FeedTables.one_folder none) (@FeedTables.Sound.ids FeedTables.lengthTimes _ sound) keyed (@FeedTables.Sound.clocked FeedTables.lengthTimes _ sound)
  exact all.2.2.1 "raindrop.csv" listed_twice

end Pergamon
