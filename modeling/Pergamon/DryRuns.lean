import Pergamon.OutlineCharts
import Pergamon.Reimports

/-!
Dry runs against the runs that they stand for. A dry run writes nothing, so it cannot see what the real
run has made of the entries before, and it makes no review cards to count. So each report comes true iff
nothing that is new is listed twice, and what the real run counts by other means comes to the same
(`dry_runs_foretold`).
-/
namespace Pergamon
open Fallible Library

/-- A dry run over bookmarks sees what the real run sees: both end at an item that cannot be read, or no
    new url is listed twice. -/
def BookmarksForetold [TimeCrate] [UrlCrate] [Unicode] (db : ImportDb) (bookmarks : List Bookmark) : Prop :=
  (∃ b ∈ bookmarks, db.library.held b.key = some false) ∨
    (bookmarks.filter (fun b => db.library.held b.key = none)).Pairwise (fun b b' => b.key ≠ b'.key)

/-- A dry run over highlights sees what the real run sees: both end at an item or a note that cannot be
    read, or no entry meets what one before it makes, and there are no review cards to make. -/
def HighlightsForetold [TimeCrate] (db : ImportDb) (enable_review : Bool) (entries : List EntryWanted) : Prop :=
  (∃ a ∈ ImportDb.wanted db.library.now entries, db.shelf.Unreadable a) ∨
    db.shelf.Apart [] (ImportDb.wanted db.library.now entries) ∧
      (enable_review = true → ∀ a ∈ ImportDb.wanted db.library.now entries, ¬ db.shelf.New a)

/-- A dry run over outlines sees what the real run sees: both end at a folder or a feed that cannot be
    read, or all folders that are there have been changed, no missing feed is listed twice, and as many
    feeds are listed elsewhere than they are as are listed elsewhere than before. -/
def OutlinesForetold [TimeCrate] (feeds : FeedTables) (outlines : List OpmlOutline) : Prop :=
  (∃ stop ∈ feeds.plan (none,[]) outlines, stop.reads feeds = false) ∨ feeds.Foretold outlines

section
variable [TimeCrate] [UrlCrate] [Unicode] {db : ImportDb}

/-- A dry run changes nothing, but that ids are drawn, and reports what the real run reports iff it sees
    what the real run sees. -/
theorem dry_runs_foretold (fresh : db.Fresh) (indexed : db.library.Indexed) {feeds : FeedTables} (fresh' : feeds.Fresh)
    (keyed : feeds.Keyed) (clocked : feeds.Clocked) :
    (∀ path items, leaves (import_raindrop true path items db) = db ∧
      (reported (import_raindrop true path items db) = reported (import_raindrop false path items db) ↔
        BookmarksForetold db (items.map RaindropItem.bookmark))) ∧
    (∀ enable_review path clippings, db.Untouched (leaves (import_kindle true enable_review path clippings db)) ∧
      (reported (import_kindle true enable_review path clippings db) = reported (import_kindle false enable_review path clippings db) ↔
        HighlightsForetold db enable_review (clippings.filterMap Kindle.KindleClipping.wanted))) ∧
    (∀ enable_review path items, db.Untouched (leaves (import_readwise true enable_review path items db)) ∧
      (reported (import_readwise true enable_review path items db) = reported (import_readwise false enable_review path items db) ↔
        HighlightsForetold db enable_review (items.map ReadwiseItem.wanted))) ∧
    ∀ outlines, (∃ k, leaves (Cli.import_opml true outlines feeds) = feeds.drawn k) ∧
      (reported (Cli.import_opml true outlines feeds) = reported (Cli.import_opml false outlines feeds) ↔ OutlinesForetold feeds outlines) := by
  refine ⟨?_,?_,?_,?_⟩
  · intro path items
    exact ⟨ImportDb.import_bookmarks_dry fresh .Raindrop path _,ImportDb.import_bookmarks_foretold fresh .Raindrop path _⟩
  · intro enable_review path clippings
    exact ⟨ImportDb.import_highlights_dry fresh indexed .Kindle enable_review path _,
      ImportDb.import_highlights_foretold fresh indexed .Kindle enable_review path _⟩
  · intro enable_review path items
    exact ⟨ImportDb.import_highlights_dry fresh indexed .Readwise enable_review path _,
      ImportDb.import_highlights_foretold fresh indexed .Readwise enable_review path _⟩
  · intro outlines
    exact FeedTables.import_opml_foretold fresh' keyed clocked outlines

end

/-- A bookmark that is listed once is foretold. -/
theorem dry_runs_foretold_once :
    reported (@import_raindrop FeedTables.lengthTimes plainUnicode rootUrls true "raindrop.csv" (listed_twice.take 1) new_library) =
      reported (@import_raindrop FeedTables.lengthTimes plainUnicode rootUrls false "raindrop.csv" (listed_twice.take 1) new_library) := by
  have sound := FeedTables.one_folder_sound none
  have indexed : new_library.library.Indexed := ⟨List.nodup_nil,List.nodup_nil⟩
  have keyed : (FeedTables.one_folder none).Keyed := ⟨List.nodup_nil,List.nodup_nil⟩
  have all := @dry_runs_foretold FeedTables.lengthTimes rootUrls plainUnicode new_library new_library_fresh indexed
    (FeedTables.one_folder none) (@FeedTables.Sound.ids FeedTables.lengthTimes _ sound) keyed
    (@FeedTables.Sound.clocked FeedTables.lengthTimes _ sound)
  refine (all.1 "raindrop.csv" _).2.mpr (.inr ?_)
  refine List.Pairwise.filter _ ?_
  exact List.pairwise_singleton _ _

/-- A url that is listed twice is created once, and found once, while the dry run creates it twice. -/
theorem dry_run_counts_twice :
    reported (@import_raindrop FeedTables.lengthTimes plainUnicode rootUrls true "raindrop.csv" listed_twice new_library) = some ⟨2,0⟩ ∧
      reported (@import_raindrop FeedTables.lengthTimes plainUnicode rootUrls false "raindrop.csv" listed_twice new_library) = some ⟨1,1⟩ := by
  have dry := @ImportDb.import_bookmarks_reported FeedTables.lengthTimes new_library rootUrls plainUnicode new_library_fresh .Raindrop false
    "raindrop.csv" (listed_twice.map RaindropItem.bookmark)
  have real := @ImportDb.import_bookmarks_reported FeedTables.lengthTimes new_library rootUrls plainUnicode new_library_fresh .Raindrop true
    "raindrop.csv" (listed_twice.map RaindropItem.bookmark)
  constructor
  · exact dry
  · exact real

end Pergamon
