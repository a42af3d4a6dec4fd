import Pergamon.OpmlImport
import Pergamon.Visits

/-!
The feeds of an OPML forest as visits. Once all folders are there, the outlines name the folder for
each feed (`feed_visits`), and what an import does to the feeds is what these visits do to rows
(`reach_visits`). A second import finds the same folders, and so makes the same visits.
-/
namespace Pergamon
open Fallible OrderedTree

namespace FeedTables

/-- Feeds have their ids, and no two of them share a url. -/
structure Keyed (db : FeedTables) : Prop where
  ids : (db.feeds.map FeedRow.id).Nodup
  urls : (db.feeds.map FeedRow.url).Nodup

/-- Times that are stored now can be read. -/
structure Clocked [TimeCrate] (db : FeedTables) : Prop where
  now_reads : (TimeCrate.parse_rfc3339 (fmt_time db.now)).isSome
  change_reads : (TimeCrate.parse_rfc3339 (TimeCrate.strftime db.now)).isSome

/-- Tables that went on: folders were added behind the others, and what could not be read still cannot. -/
structure Onward [TimeCrate] (db db' : FeedTables) : Prop where
  folders : db.feed_folders <+: db'.feed_folders
  now : db'.now = db.now
  keyed : db.Keyed → db'.Keyed
  fresh : db'.Fresh
  feeds_read : db.Clocked → db'.feed_reads = db.feed_reads
  folders_read : db.Clocked → db'.folder_reads = db.folder_reads

mutual
/-- The folder for each feed of an outline, if all folders are there. -/
def feed_visits_outline (db : FeedTables) (parent : Option String) : OpmlOutline → List (String × Option String)
  | .node outline children =>
    if outline.is_feed then (outline.xml_url.map (fun url => (url,parent))).toList
    else if outline.display_name = "" then feed_visits db parent children
    else
      match db.folder_row outline.display_name parent with
      | none => []
      | some row => feed_visits db (some row.id) children
/-- The folder for each feed of outlines, if all folders are there. -/
def feed_visits (db : FeedTables) (parent : Option String) : List OpmlOutline → List (String × Option String)
  | [] => []
  | outline :: rest => feed_visits_outline db parent outline ++ feed_visits db parent rest
end

section
variable [TimeCrate] {db db' db'' : FeedTables} {parent : Option String}

/-- Feeds under their urls, in their folders. -/
def feed_rows (now : OffsetDateTime) : Visits.Rows FeedRow String (Option String) where
  key := FeedRow.url
  place := FeedRow.folder_id
  put p row := { row with folder_id := p, updated_at := TimeCrate.strftime now }
  key_put _ _ := rfl
  place_put _ _ := rfl
  put_put _ _ _ := rfl

theorem Sound.clocked (sound : db.Sound) : db.Clocked := ⟨sound.now_reads,sound.change_reads⟩

theorem Onward.clocked (onward : Onward db db') (clocked : db.Clocked) : db'.Clocked :=
  ⟨onward.now ▸ clocked.now_reads,onward.now ▸ clocked.change_reads⟩

theorem Onward.refl (fresh : db.Fresh) : Onward db db := ⟨List.prefix_rfl,rfl,fun keyed => keyed,fresh,fun _ => rfl,fun _ => rfl⟩

theorem Onward.trans (one : Onward db db') (two : Onward db' db'') : Onward db db'' where
  folders := one.folders.trans two.folders
  now := two.now.trans one.now
  keyed keyed := two.keyed (one.keyed keyed)
  fresh := two.fresh
  feeds_read clocked := (two.feeds_read (one.clocked clocked)).trans (one.feeds_read clocked)
  folders_read clocked := (two.folders_read (one.clocked clocked)).trans (one.folders_read clocked)

omit [TimeCrate] in
theorem has_folder_later (folders : db.feed_folders <+: db'.feed_folders) (inside : db.has_folder parent) : db'.has_folder parent := by
  rw [has_folder_iff] at inside ⊢
  intro id here
  obtain ⟨row,there,named⟩ := inside id here
  exact ⟨row,folders.subset there,named⟩

theorem Onward.has_folder (onward : Onward db db') (inside : db.has_folder parent) : db'.has_folder parent :=
  has_folder_later onward.folders inside

omit [TimeCrate] in
/-- A folder that is found is found when folders were added. -/
theorem folder_row_onward {name : String} {row : FolderRow} (folders : db.feed_folders <+: db'.feed_folders)
    (found : db.folder_row name parent = some row) : db'.folder_row name parent = some row := by
  obtain ⟨more,same⟩ := folders
  unfold folder_row at found ⊢
  rw [← same,List.find?_append,found,Option.some_or]

omit [TimeCrate] in
theorem feed_row_some {url : String} {row : FeedRow} (found : db.feed_row url = some row) : row ∈ db.feeds ∧ row.url = url := by
  refine ⟨List.mem_of_find?_eq_some found,?_⟩
  simpa using List.find?_some found

omit [TimeCrate] in
theorem feed_row_none {url : String} : db.feed_row url = none ↔ url ∉ db.feeds.map FeedRow.url := by
  simp [feed_row]

/-- A feed that is moved is the one that is visited. -/
theorem move_feed_touches (keyed : db.Keyed) {url : String} {row : FeedRow} (found : db.feed_row url = some row)
    (elsewhere : row.folder_id ≠ parent) :
    (db.move_feed row.id parent).feeds = db.feeds.map (fun r => (feed_rows db.now).touch r (url,parent)) := by
  obtain ⟨there,rfl⟩ := feed_row_some found
  refine List.map_congr_left (fun r inside => ?_)
  by_cases same : r = row
  · subst same
    rw [if_pos rfl]
    exact (if_pos ⟨rfl,elsewhere.symm⟩).symm
  · rw [if_neg (fun equal => same (List.inj_on_of_nodup_map keyed.ids inside there equal))]
    exact (if_neg (fun moves => same (List.inj_on_of_nodup_map keyed.urls inside there moves.1.symm))).symm

theorem Keyed.move_feed (keyed : db.Keyed) (feed_id : String) : (db.move_feed feed_id parent).Keyed := by
  have ids : (db.move_feed feed_id parent).feeds.map FeedRow.id = db.feeds.map FeedRow.id := by
    rw [FeedTables.move_feed,List.map_map]
    exact List.map_congr_left (fun r _ => by dsimp only [Function.comp_apply]; split_ifs <;> rfl)
  have urls : (db.move_feed feed_id parent).feeds.map FeedRow.url = db.feeds.map FeedRow.url := by
    rw [FeedTables.move_feed,List.map_map]
    exact List.map_congr_left (fun r _ => by dsimp only [Function.comp_apply]; split_ifs <;> rfl)
  exact ⟨ids ▸ keyed.ids,urls ▸ keyed.urls⟩

theorem Keyed.add_feed (keyed : db.Keyed) (fresh : db.Fresh) (outline : Outline) {url : String} (missing : db.feed_row url = none) :
    (db.add_feed outline url parent).Keyed := by
  rw [feed_row_none] at missing
  constructor
  · rw [FeedTables.add_feed,List.map_append,List.map_cons,List.map_nil,← List.concat_eq_append,List.nodup_concat]
    refine ⟨?_,keyed.ids⟩
    intro inside
    obtain ⟨r,there,same⟩ := List.mem_map.mp inside
    exact fresh.new 0 (mem_mentioned.mpr (.inr ⟨r,there,.inl same.symm⟩))
  · rw [FeedTables.add_feed,List.map_append,List.map_cons,List.map_nil,← List.concat_eq_append,List.nodup_concat]
    exact ⟨missing,keyed.urls⟩

/-- A folder that is added is found where no other is. -/
theorem add_folder_row (db : FeedTables) (name : String) (parent : Option String) (other : String) (p : Option String) :
    (db.add_folder name parent).folder_row other p = (db.folder_row other p).or
      (if Library.same_name name other = true ∧ parent = p then some ⟨db.uuids 0,name,parent,fmt_time db.now,fmt_time db.now⟩ else none) := by
  simp only [folder_row,FeedTables.add_folder,List.find?_append,List.find?_cons,List.find?_nil]
  congr 1
  by_cases named : Library.same_name name other = true <;> by_cases up : parent = p <;> simp [named,up]

/-- A feed that is added is found where no other is. -/
theorem add_feed_row (db : FeedTables) (outline : Outline) (url : String) (parent : Option String) (other : String) :
    (db.add_feed outline url parent).feed_row other = (db.feed_row other).or (if url = other then
      some ⟨db.uuids 0,outline.display_name,url,outline.html_url,none,parent,fmt_time db.now,fmt_time db.now⟩ else none) := by
  simp only [feed_row,FeedTables.add_feed,List.find?_append,List.find?_cons,List.find?_nil]
  congr 1
  by_cases same : url = other <;> simp [same]

/-- A feed that is moved is found where it was. -/
theorem move_feed_row (db : FeedTables) (feed_id : String) (parent : Option String) (other : String) :
    (db.move_feed feed_id parent).feed_row other = (db.feed_row other).map (fun r =>
      if r.id = feed_id then { r with folder_id := parent, updated_at := TimeCrate.strftime db.now } else r) := by
  rw [feed_row,FeedTables.move_feed,List.find?_map,feed_row]
  congr 2
  funext r
  dsimp only [Function.comp_apply]
  split_ifs <;> rfl

/-- A feed that is added can be read, and no other feed is another. -/
theorem add_feed_reads (clocked : db.Clocked) (outline : Outline) (url : String) :
    (db.add_feed outline url parent).feed_reads = db.feed_reads := by
  funext other
  rw [feed_reads,feed_reads,add_feed_row]
  cases held : db.feed_row other with
  | some row => rfl
  | none =>
    rw [Option.none_or]
    split_ifs
    · exact new_feed_reads clocked.now_reads _ _ _ _ _
    · rfl

/-- A feed that is moved can be read iff it could be before. -/
theorem move_feed_reads (clocked : db.Clocked) (keyed : db.Keyed) {url : String} {row : FeedRow} (found : db.feed_row url = some row)
    (reads : db.feed_reads url = true) : (db.move_feed row.id parent).feed_reads = db.feed_reads := by
  funext other
  rw [feed_reads,feed_reads,move_feed_row]
  cases held : db.feed_row other with
  | none => rfl
  | some r =>
    rw [Option.map_some,Option.all_some,Option.all_some]
    split_ifs with same
    · obtain rfl := List.inj_on_of_nodup_map keyed.ids (feed_row_some held).1 (feed_row_some found).1 same
      have readable : (row_to_feed r).isSome := by simpa [feed_reads,found] using reads
      rw [readable]
      exact moved_feed_reads clocked.change_reads readable parent
    · rfl

/-- What an import does at a feed is a visit. -/
theorem reach_feed_visits (parent : Option String) (fresh : db.Fresh) (inside : db.has_folder parent) (keyed : db.Keyed) (outline : Outline)
    (reads : ∀ url ∈ outline.xml_url, db.feed_reads url = true) : Onward db (reach_feed outline parent db).1 ∧
      (feed_rows db.now).Served (outline.xml_url.map (fun url => (url,parent))).toList db.feeds (reach_feed outline parent db).1.feeds := by
  unfold reach_feed
  cases named : outline.xml_url with
  | none => exact ⟨.refl fresh,.refl db.feeds⟩
  | some url =>
    have readable := reads url named
    simp only [Option.map_some,Option.toList_some]
    cases found : db.feed_row url with
    | none =>
      exact ⟨⟨List.prefix_rfl,rfl,fun _ => keyed.add_feed fresh outline found,fresh.add_feed outline url inside,
        fun clocked => add_feed_reads clocked outline url,fun _ => rfl⟩,Visits.served_added (feed_row_none.mp found) rfl rfl⟩
    | some row =>
      obtain ⟨there,named⟩ := feed_row_some found
      have visited : url ∈ db.feeds.map (feed_rows db.now).key := List.mem_map.mpr ⟨row,there,named⟩
      dsimp only
      split_ifs with here
      · refine ⟨.refl fresh,?_⟩
        have still : db.feeds.map (fun r => (feed_rows db.now).touch r (url,parent)) = db.feeds := by
          refine (List.map_congr_left (fun r inside => ?_)).trans (List.map_id db.feeds)
          refine Visits.touch_still (fun same => ?_)
          obtain rfl := List.inj_on_of_nodup_map keyed.urls inside there (same.symm.trans named.symm)
          exact here.symm
        have served := Visits.served_found (R := feed_rows db.now) (v := (url,parent)) visited
        rwa [still] at served
      · refine ⟨⟨List.prefix_rfl,rfl,fun _ => keyed.move_feed row.id,fresh.move_feed row.id inside,
          fun clocked => move_feed_reads clocked keyed found readable,fun _ => rfl⟩,?_⟩
        rw [move_feed_touches keyed found here]
        exact Visits.served_found visited

theorem reach_folder_onward (parent : Option String) (fresh : db.Fresh) (inside : db.has_folder parent) (name : String) :
    Onward db (reach_folder name parent db).1 ∧ (reach_folder name parent db).1.has_folder (some (reach_folder name parent db).2.1) ∧
      (reach_folder name parent db).1.feeds = db.feeds := by
  unfold reach_folder
  cases held : db.folder_row name parent with
  | none =>
    refine ⟨⟨List.prefix_append _ _,rfl,fun keyed => ⟨keyed.ids,keyed.urls⟩,fresh.add_folder name inside,fun _ => rfl,?_⟩,?_,rfl⟩
    · intro clocked
      funext other p
      rw [folder_reads,folder_reads,add_folder_row]
      cases db.folder_row other p with
      | some row => rfl
      | none =>
        rw [Option.none_or]
        split_ifs
        · exact new_folder_reads clocked.now_reads _ _ _
        · rfl
    · rw [has_folder_iff]
      rintro _ ⟨⟩
      exact ⟨_,List.mem_append_right _ List.mem_cons_self,rfl⟩
  | some row =>
    refine ⟨.refl fresh,?_,rfl⟩
    rw [has_folder_iff]
    rintro _ ⟨⟩
    exact ⟨row,(folder_row_some held).1,rfl⟩

end

/-! ### Outlines up to what cannot be read -/

section
variable [TimeCrate]

mutual
/-- An outline up to a feed or a folder that cannot be read, and whether there is none. -/
def cut_outline (db : FeedTables) (parent : Option String) : OpmlOutline → List OpmlOutline × Bool
  | .node outline children =>
    if outline.is_feed then if outline.xml_url.all db.feed_reads then ([.node outline children],true) else ([],false)
    else if outline.display_name = "" then ([.node outline (cut db parent children).1],(cut db parent children).2)
    else if db.folder_reads outline.display_name parent then
      let folder := reach_folder outline.display_name parent db
      ([.node outline (cut folder.1 (some folder.2.1) children).1],(cut folder.1 (some folder.2.1) children).2)
    else ([],false)
/-- Outlines up to a feed or a folder that cannot be read, and whether there is none. -/
def cut (db : FeedTables) (parent : Option String) : List OpmlOutline → List OpmlOutline × Bool
  | [] => ([],true)
  | outline :: rest =>
    if (cut_outline db parent outline).2 then
      let later := cut (reach_outline parent db outline).1 parent rest
      ((cut_outline db parent outline).1 ++ later.1,later.2)
    else ((cut_outline db parent outline).1,false)
end

variable {db db' : FeedTables} {parent : Option String}

theorem reach_append (l l' : List OpmlOutline) : reach parent db (l ++ l') =
    ((reach parent (reach parent db l).1 l').1,(reach parent db l).2 ++ (reach parent (reach parent db l).1 l').2) := by
  induction l generalizing db with
  | nil => rw [List.nil_append,reach,List.nil_append]
  | cons outline rest ih => rw [List.cons_append,reach,ih,reach,List.append_assoc]

theorem reach_one (outline : OpmlOutline) : reach parent db [outline] = reach_outline parent db outline := by
  rw [reach,reach,List.append_nil]

/-- Outlines that can all be read are not cut. -/
theorem cut_whole {outlines : List OpmlOutline} (whole : (cut db parent outlines).2 = true) : (cut db parent outlines).1 = outlines := by
  induction outlines using forest_induction generalizing db parent with
  | nil => rw [cut]
  | cons outline children rest ih ih' =>
    rw [cut] at whole ⊢
    by_cases first : (cut_outline db parent (.node outline children)).2 = true
    · rw [if_pos first] at whole ⊢
      have same : (cut_outline db parent (.node outline children)).1 = [.node outline children] := by
        simp only [cut_outline] at first ⊢
        split_ifs at first ⊢
        · rfl
        · rw [ih first]
        · dsimp only
          rw [ih first]
      dsimp only at whole ⊢
      rw [same,ih' whole]
      rfl
    · rw [if_neg first] at whole
      cases whole

theorem cut_one {outline : OpmlOutline} (whole : (cut_outline db parent outline).2 = true) : (cut db parent [outline]).2 = true := by
  rw [cut,if_pos whole,cut]

theorem cut_outline_whole {outline : OpmlOutline} (whole : (cut_outline db parent outline).2 = true) :
    (cut_outline db parent outline).1 = [outline] := by
  have kept := cut_whole (cut_one whole)
  rw [cut,if_pos whole,cut] at kept
  simpa using kept

/-- Outlines that are cut can all be read. -/
theorem cut_cut (outlines : List OpmlOutline) : (cut db parent (cut db parent outlines).1).2 = true := by
  induction outlines using forest_induction generalizing db parent with
  | nil => rw [cut,cut]
  | cons outline children rest ih ih' =>
    -- the first outline that is left, and what is left of it
    have first : (cut_outline db parent (.node outline children)).1 = [] ∧ (cut_outline db parent (.node outline children)).2 = false ∨
        ∃ below, (cut_outline db parent (.node outline children)).1 = [.node outline below] ∧
          (cut_outline db parent (.node outline below)).2 = true := by
      simp only [cut_outline]
      split_ifs
      · exact .inr ⟨children,rfl,rfl⟩
      · exact .inl ⟨rfl,rfl⟩
      · exact .inr ⟨_,rfl,ih⟩
      · exact .inr ⟨_,rfl,ih⟩
      · exact .inl ⟨rfl,rfl⟩
    rw [cut]
    rcases first with ⟨none_left,stops⟩ | ⟨below,left,reads⟩
    · rw [if_neg (by simp [stops]),none_left,cut]
    · by_cases whole : (cut_outline db parent (.node outline children)).2 = true
      · rw [if_pos whole,cut_outline_whole whole]
        dsimp only [List.singleton_append]
        rw [cut,if_pos whole]
        exact ih'
      · rw [if_neg whole,left,cut,if_pos reads,cut]

/-- What an import does to the feeds are the visits of the outlines, and all folders are there
    afterwards. -/
theorem reach_visits (fresh : db.Fresh) (inside : db.has_folder parent) (keyed : db.Keyed) {outlines : List OpmlOutline}
    (whole : (cut db parent outlines).2 = true) :
    Onward db (reach parent db outlines).1 ∧ ∀ db' : FeedTables, (reach parent db outlines).1.feed_folders <+: db'.feed_folders →
      (feed_rows db.now).Served (feed_visits db' parent outlines) db.feeds (reach parent db outlines).1.feeds ∧
        Known (fun _ => True) db' parent outlines := by
  induction outlines using forest_induction generalizing db parent with
  | nil =>
    rw [reach]
    refine ⟨.refl fresh,fun db' _ => ?_⟩
    rw [feed_visits,Known]
    exact ⟨.refl db.feeds,trivial⟩
  | cons outline children rest ih ih' =>
    rw [cut] at whole
    split_ifs at whole with reads
    have first : Onward db (reach_outline parent db (.node outline children)).1 ∧
        ∀ db' : FeedTables, (reach_outline parent db (.node outline children)).1.feed_folders <+: db'.feed_folders →
          (feed_rows db.now).Served (feed_visits_outline db' parent (.node outline children)) db.feeds
            (reach_outline parent db (.node outline children)).1.feeds ∧ KnownOutline (fun _ => True) db' parent (.node outline children) := by
      simp only [cut_outline] at reads
      simp only [reach_outline,feed_visits_outline,KnownOutline]
      split_ifs at reads ⊢ with _ readable
      · obtain ⟨onward,served⟩ := reach_feed_visits parent fresh inside keyed outline (by simpa [Option.all_eq_true] using readable)
        exact ⟨onward,fun _ _ => ⟨served,trivial⟩⟩
      · exact ih fresh inside keyed reads
      · obtain ⟨onward,there,feeds⟩ := reach_folder_onward parent fresh inside outline.display_name
        obtain ⟨below,visits⟩ := ih onward.fresh there (onward.keyed keyed) reads
        refine ⟨onward.trans below,fun db' folders => ?_⟩
        obtain ⟨row,again,id⟩ := @reach_folder_again _ db parent outline.display_name
        have found := folder_row_onward (below.folders.trans folders) again
        obtain ⟨served,known⟩ := visits db' folders
        rw [onward.now,feeds] at served
        rw [found]
        dsimp only
        rw [id]
        exact ⟨served,row,rfl,trivial,id.symm ▸ known⟩
    obtain ⟨onward,visits⟩ := first
    obtain ⟨onward',visits'⟩ := ih' onward.fresh (onward.has_folder inside) (onward.keyed keyed) whole
    rw [reach]
    refine ⟨onward.trans onward',fun db' folders => ?_⟩
    obtain ⟨served,known⟩ := visits db' (onward'.folders.trans folders)
    obtain ⟨served',known'⟩ := visits' db' folders
    rw [onward.now] at served'
    rw [feed_visits,Known]
    exact ⟨served.trans served',known,known'⟩

/-! ### A second import -/

theorem Cli.stops_feed {outline : Outline} {url : String} (named : outline.xml_url = some url) (unreadable : db.feed_reads url = false)
    (dry_run : Bool) (stats : ImportStats) : Cli.import_feed dry_run outline parent stats db = .error .panic db := by
  unfold Cli.import_feed
  simp only [named]
  cases held : db.feed_row url with
  | none => simp [FeedTables.feed_reads,held] at unreadable
  | some row =>
    have none_read : row_to_feed row = none := by simpa [FeedTables.feed_reads,held] using unreadable
    rw [work_bind]
    unfold get_feed_by_url
    rw [get_bind]
    simp only [held,none_read]
    rfl

theorem Cli.stops_folder {name : String} (unreadable : db.folder_reads name parent = false) (dry_run : Bool) (stats : ImportStats) :
    Cli.import_folder dry_run name parent stats db = .error .panic db := by
  cases held : db.folder_row name parent with
  | none => simp [FeedTables.folder_reads,held] at unreadable
  | some row =>
    have none_read : row_to_feed_folder row = none := by simpa [FeedTables.folder_reads,held] using unreadable
    have stops : get_feed_folder_by_name name parent db = .error .panic db := by
      unfold get_feed_folder_by_name
      rw [get_bind]
      simp only [held,none_read]
      rfl
    unfold Cli.import_folder Cli.get_or_create_folder
    cases dry_run
    · rw [if_neg Bool.false_ne_true,work_bind,work_bind,stops]
    · rw [if_pos rfl,work_bind,stops]

/-- The command line takes outlines that can all be read, and stops where they are cut. -/
theorem cli_walk (fresh : db.Fresh) (inside : db.has_folder parent) (keyed : db.Keyed) (outlines : List OpmlOutline) (stats : ImportStats) :
    (Cli.steps false).import_outlines parent stats outlines db = if (cut db parent outlines).2 then
      .ok ((reach parent db outlines).2.foldl cli_count stats) (reach parent db outlines).1
    else .error .panic (reach parent db (cut db parent outlines).1).1 := by
  induction outlines using forest_induction generalizing db parent stats with
  | nil =>
    rw [ImportSteps.import_outlines,reach,cut]
    rfl
  | cons outline children rest ih ih' =>
    have first : (Cli.steps false).import_outline parent stats (.node outline children) db =
        if (cut_outline db parent (.node outline children)).2 then
          .ok ((reach_outline parent db (.node outline children)).2.foldl cli_count stats) (reach_outline parent db (.node outline children)).1
        else .error .panic (reach parent db (cut_outline db parent (.node outline children)).1).1 := by
      rw [ImportSteps.import_outline,cut_outline,reach_outline]
      by_cases feed : outline.is_feed
      · obtain ⟨url,named⟩ := Option.isSome_iff_exists.mp (show outline.xml_url.isSome from feed)
        simp only [if_pos feed,named,Option.all_some]
        by_cases reads : db.feed_reads url = true
        · rw [if_pos reads,if_pos rfl]
          exact Cli.takes_feed fresh inside named reads stats
        · rw [if_neg reads,if_neg Bool.false_ne_true,reach]
          exact Cli.stops_feed named (by simpa using reads) false stats
      · simp only [if_neg feed]
        by_cases unnamed : outline.display_name = ""
        · simp only [if_pos unnamed,reach_one,reach_outline,if_neg feed]
          exact ih fresh inside keyed stats
        · simp only [if_neg unnamed]
          by_cases reads : db.folder_reads outline.display_name parent = true
          · obtain ⟨onward,there,-⟩ := reach_folder_onward parent fresh inside outline.display_name
            have taken : (Cli.steps false).folder outline.display_name parent stats db = _ := Cli.takes_folder fresh inside reads stats
            simp only [if_pos reads,reach_one,reach_outline,if_neg feed,if_neg unnamed]
            rw [work_bind,taken]
            exact ih onward.fresh there (onward.keyed keyed) _
          · have stops : (Cli.steps false).folder outline.display_name parent stats db = _ :=
              Cli.stops_folder (by simpa using reads) false stats
            rw [if_neg reads,if_neg Bool.false_ne_true,reach,work_bind,stops]
    rw [ImportSteps.import_outlines,work_bind,first,cut]
    by_cases whole : (cut_outline db parent (.node outline children)).2 = true
    · have onward := (reach_visits fresh inside keyed (cut_one whole)).1
      rw [reach_one] at onward
      simp only [if_pos whole,cut_outline_whole whole,reach_append,reach_one,reach,List.foldl_append]
      exact ih' onward.fresh (onward.has_folder inside) (onward.keyed keyed) _
    · simp only [if_neg whole]
      rfl

/-- The tables that an import leaves. -/
theorem cli_leaves (fresh : db.Fresh) (keyed : db.Keyed) (outlines : List OpmlOutline) :
    leaves (Cli.import_opml false outlines db) = (reach none db (cut db none outlines).1).1 := by
  have walk := cli_walk fresh (show db.has_folder none from rfl) keyed outlines no_stats
  change leaves ((Cli.steps false).import_outlines none no_stats outlines db) = _
  rw [walk]
  by_cases whole : (cut db none outlines).2 = true
  · rw [if_pos whole,cut_whole whole]
    rfl
  · rw [if_neg whole]
    rfl

/-- Tables that went on from those of an import cut the outlines where it did. -/
theorem cut_again (fresh : db.Fresh) (inside : db.has_folder parent) (keyed : db.Keyed) (clocked : db.Clocked)
    (fresh' : db'.Fresh) (keyed' : db'.Keyed) (clocked' : db'.Clocked) {outlines : List OpmlOutline}
    (folders : (reach parent db (cut db parent outlines).1).1.feed_folders <+: db'.feed_folders)
    (feeds_read : db'.feed_reads = db.feed_reads) (folders_read : db'.folder_reads = db.folder_reads) :
    cut db' parent outlines = cut db parent outlines := by
  induction outlines using forest_induction generalizing db db' parent with
  | nil => rw [cut,cut]
  | cons outline children rest ih ih' =>
    -- what the first outline makes is there
    have early : (reach parent db (cut_outline db parent (.node outline children)).1).1.feed_folders <+: db'.feed_folders := by
      rw [cut] at folders
      by_cases whole : (cut_outline db parent (.node outline children)).2 = true
      · have onward := (reach_visits fresh inside keyed (cut_one whole)).1
        rw [reach_one] at onward
        have onward' := (reach_visits onward.fresh (onward.has_folder inside) (onward.keyed keyed) (cut_cut rest)).1
        simp only [if_pos whole,cut_outline_whole whole,reach_append,reach_one] at folders ⊢
        exact onward'.folders.trans folders
      · rwa [if_neg whole] at folders
    have same : cut_outline db' parent (.node outline children) = cut_outline db parent (.node outline children) := by
      rw [cut_outline] at early
      rw [cut_outline,cut_outline,feeds_read,folders_read]
      by_cases feed : outline.is_feed
      · rw [if_pos feed,if_pos feed]
      · simp only [if_neg feed] at early ⊢
        by_cases unnamed : outline.display_name = ""
        · simp only [if_pos unnamed,reach_one,reach_outline,if_neg feed] at early ⊢
          rw [ih fresh inside keyed clocked fresh' keyed' clocked' early feeds_read folders_read]
        · simp only [if_neg unnamed] at early ⊢
          by_cases reads : db.folder_reads outline.display_name parent = true
          · obtain ⟨onward,there,-⟩ := reach_folder_onward parent fresh inside outline.display_name
            simp only [if_pos reads,reach_one,reach_outline,if_neg feed,if_neg unnamed] at early ⊢
            have below := (reach_visits onward.fresh there (onward.keyed keyed) (cut_cut children)).1
            obtain ⟨row,again,id⟩ := @reach_folder_again _ db parent outline.display_name
            have found := folder_row_onward (below.folders.trans early) again
            have goes : reach_folder outline.display_name parent db' = (db',row.id,some row) := by
              unfold reach_folder
              rw [found]
            rw [goes]
            dsimp only
            rw [id,ih onward.fresh there (onward.keyed keyed) (onward.clocked clocked) fresh' keyed' clocked' early
              (feeds_read.trans (onward.feeds_read clocked).symm) (folders_read.trans (onward.folders_read clocked).symm)]
          · rw [if_neg reads,if_neg reads]
    rw [cut,cut,same]
    by_cases whole : (cut_outline db parent (.node outline children)).2 = true
    · have onward := (reach_visits fresh inside keyed (cut_one whole)).1
      rw [reach_one] at onward
      have inside' : db'.has_folder parent := by
        rw [cut_outline_whole whole,reach_one] at early
        exact has_folder_later (onward.folders.trans early) inside
      have onward' := (reach_visits fresh' inside' keyed' (cut_one (same ▸ whole))).1
      rw [reach_one] at onward'
      rw [cut] at folders
      simp only [if_pos whole,cut_outline_whole whole,reach_append,reach_one] at folders ⊢
      rw [ih' onward.fresh (onward.has_folder inside) (onward.keyed keyed) (onward.clocked clocked) onward'.fresh (onward'.keyed keyed')
        (onward'.clocked clocked') (folders.trans onward'.folders)
        ((onward'.feeds_read clocked').trans (feeds_read.trans (onward.feeds_read clocked).symm))
        ((onward'.folders_read clocked').trans (folders_read.trans (onward.folders_read clocked).symm))]
    · rw [if_neg whole,if_neg whole]

/-- A second import leaves the folders and the feeds as the first one left them. -/
theorem import_opml_again (fresh : db.Fresh) (keyed : db.Keyed) (clocked : db.Clocked) (outlines : List OpmlOutline) :
    (leaves (Cli.import_opml false outlines (leaves (Cli.import_opml false outlines db)))).feed_folders =
        (leaves (Cli.import_opml false outlines db)).feed_folders ∧
      (leaves (Cli.import_opml false outlines (leaves (Cli.import_opml false outlines db)))).feeds =
        (leaves (Cli.import_opml false outlines db)).feeds := by
  obtain ⟨onward,visits⟩ := reach_visits fresh (show db.has_folder none from rfl) keyed (cut_cut outlines)
  rw [cli_leaves fresh keyed]
  generalize first : (reach none db (cut db none outlines).1).1 = db₁ at onward visits ⊢
  have folders : (reach none db (cut db none outlines).1).1.feed_folders <+: db₁.feed_folders := by rw [first]
  have same := cut_again fresh (show db.has_folder none from rfl) keyed clocked onward.fresh (onward.keyed keyed) (onward.clocked clocked)
    folders (onward.feeds_read clocked) (onward.folders_read clocked)
  have whole : (cut db₁ none (cut db none outlines).1).2 = true := same ▸ cut_cut outlines
  rw [cli_leaves onward.fresh (onward.keyed keyed),same]
  have still := (known_iff _ rfl _).2 (visits db₁ List.prefix_rfl).2
  obtain ⟨-,visits'⟩ := reach_visits onward.fresh (show db₁.has_folder none from rfl) (onward.keyed keyed) whole
  have served := (visits (reach none db₁ (cut db none outlines).1).1 (by rw [still])).1
  have served' := (visits' _ List.prefix_rfl).1
  rw [onward.now] at served'
  exact ⟨still,served.again served'⟩

end
end FeedTables
end Pergamon
