import Pergamon.OutlineVisits

/-!
Places in the folders before an import: a folder that is there, and below it the names of folders that
are not. A dry run and a real one both take the outlines to the same places (`plan`), though a dry run
goes on in folders with ids of no meaning, and a real run in folders that it has made. So the dry run
counts as the rehearsal of the visits to these places, and the real run as the visits do, but for the
folders that it finds unchanged (`import_opml_foretold`).
-/
namespace Pergamon
open Fallible OrderedTree

namespace FeedTables

/-- A folder that is there, and the names below it of folders that are not. -/
abbrev Place := Option String × List (List Char)

/-- The row and the place of a folder with a name in any letter case, within a place. -/
def descend (db : FeedTables) (place : Place) (name : String) : Option FolderRow × Place :=
  match place with
  | (base,[]) =>
    match db.folder_row name base with
    | some row => (some row,some row.id,[])
    | none => (none,base,[Library.folded name])
  | (base,below) => (none,base,below ++ [Library.folded name])

/-- What outlines lead to: a folder, with its row if it is there, or a feed at a place. -/
inductive Stop where
  | Folder (found : Option FolderRow)
  | Feed (url : String) (place : Place)

mutual
/-- Where an outline leads. -/
def plan_outline (db : FeedTables) (place : Place) : OpmlOutline → List Stop
  | .node outline children =>
    if outline.is_feed then (outline.xml_url.map (fun url => .Feed url place)).toList
    else if outline.display_name = "" then plan db place children
    else .Folder (db.descend place outline.display_name).1 :: plan db (db.descend place outline.display_name).2 children
/-- Where outlines lead. -/
def plan (db : FeedTables) (place : Place) : List OpmlOutline → List Stop
  | [] => []
  | outline :: rest => plan_outline db place outline ++ plan db place rest
end

/-- What is stored at a stop can be read. -/
def Stop.reads [TimeCrate] (db : FeedTables) : Stop → Bool
  | .Folder found => found.all (fun row => (row_to_feed_folder row).isSome)
  | .Feed url _ => db.feed_reads url

/-- The places where feeds are. -/
def stored (db : FeedTables) : String → Option Place := fun url => (db.feed_row url).map (fun row => (row.folder_id,[]))

def reached : Visits.Found → Reached
  | .Added => .FeedAdded
  | .Existing => .FeedExisting
  | .Moved => .FeedMoved

/-- What a dry run finds. -/
def Stop.rehearsed (s : String → Option Place) : Stop → Reached
  | .Folder found => .Folder found
  | .Feed url place => reached (Visits.found s (url,place))

/-- What a real run finds, where feeds are put at places on the way. -/
def tracked (s : String → Option Place) : List Stop → List Reached
  | [] => []
  | .Folder found :: l => .Folder found :: tracked s l
  | .Feed url place :: l => reached (Visits.found s (url,place)) :: tracked (Function.update s url (some place)) l

/-- The places where feeds are after stops. -/
def placed (s : String → Option Place) : List Stop → String → Option Place
  | [] => s
  | .Folder _ :: l => placed s l
  | .Feed url place :: l => placed (Function.update s url (some place)) l

def Stop.visit : Stop → Option (String × Place)
  | .Folder _ => none
  | .Feed url place => some (url,place)

section
variable {db : FeedTables} {place : Place} {name : String} {row : FolderRow}

theorem descend_some (found : (db.descend place name).1 = some row) :
    place.2 = [] ∧ db.folder_row name place.1 = some row ∧ (db.descend place name).2 = (some row.id,[]) := by
  obtain ⟨base,below⟩ := place
  cases below with
  | cons n below => cases found
  | nil =>
    cases there : db.folder_row name base with
    | none =>
      simp only [descend,there] at found
      cases found
    | some other =>
      simp only [descend,there,Option.some.injEq] at found ⊢
      exact ⟨trivial,found,by rw [found]⟩

theorem descend_none (missing : (db.descend place name).1 = none) :
    (db.descend place name).2 = (place.1,place.2 ++ [Library.folded name]) := by
  obtain ⟨base,below⟩ := place
  cases below with
  | cons n below => rfl
  | nil =>
    cases there : db.folder_row name base with
    | none => simp only [descend,there,List.nil_append]
    | some other =>
      simp only [descend,there] at missing
      cases missing

theorem folder_row_folded {other : String} (same : Library.folded name = Library.folded other) (parent : Option String) :
    db.folder_row name parent = db.folder_row other parent := by
  simp only [folder_row,Library.same_name,same]

theorem descend_folded {other : String} (same : Library.folded name = Library.folded other) : db.descend place name = db.descend place other := by
  obtain ⟨base,below⟩ := place
  cases below with
  | nil => simp only [descend,folder_row_folded same,same]
  | cons n below => simp only [descend,same]

theorem tracked_append (s : String → Option Place) (l l' : List Stop) : tracked s (l ++ l') = tracked s l ++ tracked (placed s l) l' := by
  induction l generalizing s with
  | nil => rfl
  | cons stop l ih =>
    cases stop with
    | Folder found => exact congrArg _ (ih s)
    | Feed url place => exact congrArg _ (ih _)

theorem placed_append (s : String → Option Place) (l l' : List Stop) : placed s (l ++ l') = placed (placed s l) l' := by
  induction l generalizing s with
  | nil => rfl
  | cons stop l ih =>
    cases stop with
    | Folder found => exact ih s
    | Feed url place => exact ih _

end

/-! ### The dry run -/

section
variable [TimeCrate] {db : FeedTables} {parent : Option String} {place : Place}

omit [TimeCrate] in
/-- The folder that a dry run goes on in, which is at a place, or has an id that is new. -/
def Stands (db : FeedTables) (parent : Option String) (place : Place) : Prop :=
  place = (parent,[]) ∨ place.2 ≠ [] ∧ ∃ id, parent = some id ∧ id ∉ db.mentioned

/-- The tables when ids were drawn. -/
def drawn (db : FeedTables) (k : ℕ) : FeedTables := { db with uuids := fun n => db.uuids (n + k) }

omit [TimeCrate] in
theorem Fresh.drawn (fresh : db.Fresh) (k : ℕ) : (db.drawn k).Fresh :=
  ⟨fun n => fresh.new (n + k),fun m n same => by
    have := fresh.once same
    omega⟩

theorem dry_feed (stands : Stands db parent place) {outline : Outline} {url : String} (named : outline.xml_url = some url)
    (stats : ImportStats) (k : ℕ) : Cli.import_feed true outline parent stats (db.drawn k) =
      if (Stop.Feed url place).reads db then .ok (count stats ((Stop.Feed url place).rehearsed db.stored)) (db.drawn k)
      else .error .panic (db.drawn k) := by
  by_cases reads : db.feed_reads url = true
  · rw [Stop.reads,if_pos reads,Stop.rehearsed]
    unfold Cli.import_feed
    simp only [named]
    cases held : db.feed_row url with
    | none =>
      rw [work_bind,get_feed_none (show (db.drawn k).feed_row url = none from held),Visits.found_missing (by simp [stored,held])]
      rfl
    | some row =>
      have readable : (row_to_feed row).isSome := by simpa [FeedTables.feed_reads,held] using reads
      obtain ⟨existing,id,folder,got⟩ := get_feed_some readable (show (db.drawn k).feed_row url = some row from held)
      have there : db.stored url = some (row.folder_id,[]) := by simp [stored,held]
      rw [work_bind,got,Visits.found_there there]
      simp only [folder]
      have here_iff : row.folder_id = parent ↔ (row.folder_id,[]) = place := by
        rcases stands with rfl | ⟨below,new,rfl,unmentioned⟩
        · simp
        · refine iff_of_false (fun same => ?_) (fun same => below (by rw [← same]))
          exact unmentioned (mem_mentioned.mpr (.inr ⟨row,(feed_row_some held).1,.inr same⟩))
      by_cases here : row.folder_id = parent
      · rw [if_pos here,if_pos (here_iff.mp here)]
        rfl
      · rw [if_neg here,if_neg (fun same => here (here_iff.mpr same))]
        rfl
  · rw [Stop.reads,if_neg reads]
    have unreadable : db.feed_reads url = false := by simpa using reads
    exact Cli.stops_feed named (show (db.drawn k).feed_reads url = false from unreadable) true stats

omit [TimeCrate] in
/-- A dry run finds at a folder what its name leads to. -/
theorem Stands.folder_row (stands : Stands db parent place) (name : String) :
    db.folder_row name parent = (db.descend place name).1 ∧ ((db.folder_row name parent).isSome → place = (parent,[])) := by
  rcases stands with rfl | ⟨below,id,rfl,unmentioned⟩
  · refine ⟨?_,fun _ => rfl⟩
    cases held : db.folder_row name parent <;> simp [descend,held]
  · have missing : db.folder_row name (some id) = none := by
      rw [Option.eq_none_iff_forall_ne_some]
      intro row held
      obtain ⟨there,-,up⟩ := folder_row_some held
      exact unmentioned (mem_mentioned.mpr (.inl ⟨row,there,.inr up⟩))
    rw [missing]
    refine ⟨?_,nofun⟩
    cases there : (db.descend place name).1 with
    | none => rfl
    | some row => exact absurd (descend_some there).1 below

theorem dry_folder (fresh : db.Fresh) (stands : Stands db parent place) (name : String) (stats : ImportStats) (k : ℕ) : ∃ folder k',
    Cli.import_folder true name parent stats (db.drawn k) = (if (Stop.Folder (db.descend place name).1).reads db then
        .ok (folder,count stats (.Folder (db.descend place name).1)) (db.drawn k') else .error .panic (db.drawn k')) ∧
      Stands db folder (db.descend place name).2 := by
  obtain ⟨same,base⟩ := stands.folder_row name
  rw [← same]
  cases held : db.folder_row name parent with
  | some row =>
    have here := base (by rw [held]; rfl)
    subst here
    have stands' : Stands db (some row.id) (db.descend (parent,[]) name).2 := .inl (by simp [descend,held])
    refine ⟨some row.id,k,?_,stands'⟩
    by_cases reads : (row_to_feed_folder row).isSome
    · obtain ⟨folder,_,id,got⟩ := get_folder_some reads (show (db.drawn k).folder_row name parent = some row from held)
      unfold Cli.import_folder
      rw [Stop.reads,Option.all_some,if_pos reads,if_pos rfl,work_bind,got]
      simp [id,count,pure,EStateM.pure]
    · rw [Stop.reads,Option.all_some,if_neg reads]
      exact Cli.stops_folder (show (db.drawn k).folder_reads name parent = false by
        rw [FeedTables.folder_reads,show (db.drawn k).folder_row name parent = some row from held]
        simpa using reads) true stats
  | none =>
    refine ⟨some (db.uuids k),k + 1,?_,?_⟩
    · unfold Cli.import_folder
      rw [Stop.reads,Option.all_none,if_pos rfl,if_pos rfl,work_bind,
        get_folder_none (show (db.drawn k).folder_row name parent = none from held)]
      simp [new_v4,drawn,count,work_bind,pure,EStateM.pure,Nat.add_assoc,Nat.add_comm 1 k]
    · exact .inr ⟨by simp [descend_none (same.symm.trans held)],_,rfl,fresh.new k⟩

/-- A dry run over outlines counts what is found at the places that they lead to, unless something there
    cannot be read, and changes nothing. -/
theorem dry_walk (fresh : db.Fresh) (stands : Stands db parent place) (outlines : List OpmlOutline) (stats : ImportStats) (k : ℕ) :
    ∃ k', (Cli.steps true).import_outlines parent stats outlines (db.drawn k) = if (plan db place outlines).all (Stop.reads db) then
      .ok (((plan db place outlines).map (Stop.rehearsed db.stored)).foldl count stats) (db.drawn k') else .error .panic (db.drawn k') := by
  induction outlines using forest_induction generalizing parent place stats k with
  | nil =>
    rw [ImportSteps.import_outlines,plan]
    exact ⟨k,rfl⟩
  | cons outline children rest ih ih' =>
    have first : ∃ k', (Cli.steps true).import_outline parent stats (.node outline children) (db.drawn k) =
        if (plan_outline db place (.node outline children)).all (Stop.reads db) then
          .ok (((plan_outline db place (.node outline children)).map (Stop.rehearsed db.stored)).foldl count stats) (db.drawn k')
        else .error .panic (db.drawn k') := by
      rw [ImportSteps.import_outline,plan_outline]
      by_cases feed : outline.is_feed
      · obtain ⟨url,named⟩ := Option.isSome_iff_exists.mp (show outline.xml_url.isSome from feed)
        have taken : (Cli.steps true).feed outline parent stats (db.drawn k) = _ := dry_feed stands named stats k
        refine ⟨k,?_⟩
        rw [if_pos feed,if_pos feed,named,taken]
        simp
      · rw [if_neg feed,if_neg feed]
        by_cases unnamed : outline.display_name = ""
        · rw [if_pos unnamed,if_pos unnamed]
          exact ih stands stats k
        · rw [if_neg unnamed,if_neg unnamed]
          obtain ⟨folder,k',goes,stands'⟩ := dry_folder fresh stands outline.display_name stats k
          have taken : (Cli.steps true).folder outline.display_name parent stats (db.drawn k) = _ := goes
          rw [work_bind,taken,List.all_cons]
          by_cases reads : (Stop.Folder (db.descend place outline.display_name).1).reads db = true
          · obtain ⟨k'',below⟩ := ih stands' (count stats (.Folder (db.descend place outline.display_name).1)) k'
            refine ⟨k'',?_⟩
            simp only [reads,if_true,Bool.true_and]
            exact below
          · simp only [reads,Bool.false_and,Bool.false_eq_true,if_false]
            exact ⟨k',rfl⟩
    obtain ⟨k',taken⟩ := first
    rw [ImportSteps.import_outlines,plan,work_bind,taken,List.all_append]
    by_cases reads : (plan_outline db place (.node outline children)).all (Stop.reads db) = true
    · obtain ⟨k'',after⟩ := ih' stands (((plan_outline db place (.node outline children)).map (Stop.rehearsed db.stored)).foldl count stats) k'
      refine ⟨k'',?_⟩
      simp only [reads,if_true,Bool.true_and,List.map_append,List.foldl_append]
      exact after
    · simp only [reads,Bool.false_and,Bool.false_eq_true,if_false]
      exact ⟨k',rfl⟩

end
/-! ### The real run -/

/-- The places of folders, among the folders that were there at first and those that were made. -/
structure Charted [TimeCrate] (db₀ db : FeedTables) (spot : Option String → Place) : Prop where
  folders : db₀.feed_folders <+: db.feed_folders
  old : ∀ p, (spot p).2 = [] → (spot p).1 = p
  made : ∀ p, (spot p).2 ≠ [] → db.has_folder p
  inj : Function.Injective spot
  found : ∀ p name row, db.has_folder p → db.folder_row name p = some row → spot (some row.id) = (db₀.descend (spot p) name).2 ∧
    ((db₀.descend (spot p) name).1 = some row ∨ (db₀.descend (spot p) name).1 = none ∧ unchanged row = true)
  missing : ∀ p name, db.has_folder p → db.folder_row name p = none →
    (db₀.descend (spot p) name).1 = none ∧ ∀ q, spot q ≠ (db₀.descend (spot p) name).2
  closed : ∀ q base below n, spot q = (base,below ++ [n]) → ∃ p, db.has_folder p ∧ spot p = (base,below)

section
variable [TimeCrate] {db₀ db : FeedTables} {spot : Option String → Place} {parent : Option String}

/-- At first all folders are where they are. -/
theorem Charted.start (db : FeedTables) : Charted db db (fun p => (p,[])) where
  folders := List.prefix_rfl
  old _ _ := rfl
  made _ below := absurd rfl below
  inj _ _ same := congrArg Prod.fst same
  found p name row _ held := by simp [descend,held]
  missing p name _ held := by simp [descend,held]
  closed q base below n same := absurd (congrArg Prod.snd same) (by simp)

theorem Charted.congr {db' : FeedTables} (charted : Charted db₀ db spot) (same : db'.feed_folders = db.feed_folders) : Charted db₀ db' spot := by
  have rows (name : String) (p : Option String) : db'.folder_row name p = db.folder_row name p := folder_row_congr same name
  have has (p : Option String) : db'.has_folder p = db.has_folder p := by
    unfold has_folder
    rw [same]
  obtain ⟨folders,old,made,inj,found,missing,closed⟩ := charted
  refine ⟨same ▸ folders,old,?_,inj,?_,?_,?_⟩
  · simpa only [has] using made
  · simpa only [has,rows] using found
  · simpa only [has,rows] using missing
  · simpa only [has] using closed

/-- A folder that is made gets the place that its name leads to. -/
theorem Charted.add_folder (charted : Charted db₀ db spot) (fresh : db.Fresh) (clocked : db.Clocked) (inside : db.has_folder parent) {name : String}
    (held : db.folder_row name parent = none) :
    Charted db₀ (db.add_folder name parent) (Function.update spot (some (db.uuids 0)) (db₀.descend (spot parent) name).2) ∧
      ∀ p, db.has_folder p → Function.update spot (some (db.uuids 0)) (db₀.descend (spot parent) name).2 p = spot p := by
  obtain ⟨folders,old,made,inj,found,missing,closed⟩ := charted
  obtain ⟨absent,away⟩ := missing parent name inside held
  have place := descend_none absent
  have nonempty : (db₀.descend (spot parent) name).2.2 ≠ [] := by simp [place]
  have unmentioned := fresh.new 0
  have apart (p : Option String) (there : db.has_folder p) : p ≠ some (db.uuids 0) := by
    rintro rfl
    obtain ⟨row,here,same⟩ := has_folder_iff.mp there _ rfl
    exact unmentioned (mem_mentioned.mpr (.inl ⟨row,here,.inl same.symm⟩))
  have kept (p : Option String) (there : db.has_folder p) :
      Function.update spot (some (db.uuids 0)) (db₀.descend (spot parent) name).2 p = spot p := Function.update_of_ne (apart p there) _ _
  have has (q : Option String) : (db.add_folder name parent).has_folder q ↔ db.has_folder q ∨ q = some (db.uuids 0) := by
    cases q with
    | none => simp [has_folder]
    | some id => simp [has_folder,FeedTables.add_folder,@eq_comm _ id]
  have none_below (other : String) : (db.add_folder name parent).folder_row other (some (db.uuids 0)) = none := by
    rw [add_folder_row,if_neg (fun both => apart parent inside both.2),Option.or_none,folder_row,List.find?_eq_none]
    intro row there same
    simp only [Bool.and_eq_true,decide_eq_true_eq] at same
    exact unmentioned (mem_mentioned.mpr (.inl ⟨row,there,.inr same.2⟩))
  refine ⟨⟨folders.trans (List.prefix_append _ _),?_,?_,?_,?_,?_,?_⟩,kept⟩
  · intro p empty
    by_cases new : p = some (db.uuids 0)
    · rw [new,Function.update_self] at empty
      exact absurd empty nonempty
    · rw [Function.update_of_ne new] at empty ⊢
      exact old p empty
  · intro p below
    rw [has]
    by_cases new : p = some (db.uuids 0)
    · exact .inr new
    · rw [Function.update_of_ne new] at below
      exact .inl (made p below)
  · intro p q same
    by_cases new : p = some (db.uuids 0)
    · by_cases new' : q = some (db.uuids 0)
      · exact new.trans new'.symm
      · rw [new,Function.update_self,Function.update_of_ne new'] at same
        exact absurd same.symm (away q)
    · by_cases new' : q = some (db.uuids 0)
      · rw [new',Function.update_self,Function.update_of_ne new] at same
        exact absurd same (away p)
      · rw [Function.update_of_ne new,Function.update_of_ne new'] at same
        exact inj same
  · intro p other row there here
    rcases (has p).mp there with there | rfl
    · rw [add_folder_row] at here
      rw [kept p there]
      cases before : db.folder_row other p with
      | some row' =>
        rw [before,Option.some_or] at here
        obtain rfl := Option.some.inj here
        have has_row : db.has_folder (some row'.id) := by
          rw [has_folder_iff]
          rintro _ ⟨⟩
          exact ⟨row',(folder_row_some before).1,rfl⟩
        rw [kept _ has_row]
        exact found p other row' there before
      | none =>
        rw [before,Option.none_or] at here
        split_ifs at here with both
        obtain rfl := Option.some.inj here
        obtain ⟨named,rfl⟩ := both
        have same : Library.folded name = Library.folded other := by simpa [Library.same_name] using named
        obtain ⟨now,reads⟩ := Option.isSome_iff_exists.mp clocked.now_reads
        rw [← descend_folded same,Function.update_self]
        exact ⟨rfl,.inr ⟨absent,by simp [unchanged,row_to_feed_folder,reads]⟩⟩
    · cases (none_below other).symm.trans here
  · intro p other there here
    rcases (has p).mp there with there | rfl
    · rw [add_folder_row,Option.or_eq_none_iff] at here
      obtain ⟨before,differs⟩ := here
      obtain ⟨absent',away'⟩ := missing p other there before
      rw [kept p there]
      refine ⟨absent',fun q => ?_⟩
      by_cases new : q = some (db.uuids 0)
      · rw [new,Function.update_self,place,descend_none absent']
        intro same
        have below := List.append_inj' (Prod.mk.inj same).2 rfl
        have base : (spot parent).1 = (spot p).1 := (Prod.mk.inj same).1
        have folder : spot parent = spot p := Prod.ext base below.1
        have folded : Library.folded name = Library.folded other := by simpa using below.2
        rw [if_pos ⟨by simpa [Library.same_name] using folded,inj folder⟩] at differs
        cases differs
      · rw [Function.update_of_ne new]
        exact away' q
    · rw [Function.update_self]
      have absent' : (db₀.descend (db₀.descend (spot parent) name).2 other).1 = none := by
        cases there : (db₀.descend (db₀.descend (spot parent) name).2 other).1 with
        | none => rfl
        | some row => exact absurd (descend_some there).1 nonempty
      refine ⟨absent',fun q same => ?_⟩
      rw [descend_none absent'] at same
      by_cases new : q = some (db.uuids 0)
      · rw [new,Function.update_self] at same
        have := congrArg (fun place : Place => place.2.length) same
        simp at this
      · rw [Function.update_of_ne new] at same
        obtain ⟨p,-,here⟩ := closed q _ _ _ same
        exact away p here
  · intro q base below n same
    by_cases new : q = some (db.uuids 0)
    · rw [new,Function.update_self,place] at same
      have parts := List.append_inj' (Prod.mk.inj same).2 rfl
      have first : (spot parent).1 = base := (Prod.mk.inj same).1
      exact ⟨parent,(has parent).mpr (.inl inside),(kept parent inside).trans (Prod.ext first parts.1)⟩
    · rw [Function.update_of_ne new] at same
      obtain ⟨p,there,here⟩ := closed q base below n same
      exact ⟨p,(has p).mpr (.inl there),by rw [kept p there,here]⟩

/-- The places where feeds are, by the places of their folders. -/
def spots (db : FeedTables) (spot : Option String → Place) : String → Option Place := fun url => (db.feed_row url).map (fun row => spot row.folder_id)

omit [TimeCrate] in
theorem spots_some {url : String} {row : FeedRow} (held : db.feed_row url = some row) : db.spots spot url = some (spot row.folder_id) := by
  rw [spots,held,Option.map_some]

omit [TimeCrate] in
theorem spots_none {url : String} (held : db.feed_row url = none) : db.spots spot url = none := by
  rw [spots,held,Option.map_none]

/-- A feed that is added is at the place of its folder. -/
theorem spots_added {url : String} (held : db.feed_row url = none) (outline : Outline) :
    (db.add_feed outline url parent).spots spot = Function.update (db.spots spot) url (some (spot parent)) := by
  funext other
  rw [Function.update_apply,spots,add_feed_row]
  by_cases same : other = url
  · subst same
    rw [held,if_pos rfl,if_pos rfl,Option.none_or,Option.map_some]
  · rw [if_neg same,if_neg (fun equal => same equal.symm),Option.or_none]
    rfl

/-- A feed that is moved is at the place of its folder. -/
theorem spots_moved (keyed : db.Keyed) {url : String} {row : FeedRow} (held : db.feed_row url = some row) :
    (db.move_feed row.id parent).spots spot = Function.update (db.spots spot) url (some (spot parent)) := by
  funext other
  obtain ⟨there,named⟩ := feed_row_some held
  rw [Function.update_apply,spots,move_feed_row]
  by_cases same : other = url
  · subst same
    rw [held,if_pos rfl,Option.map_some,Option.map_some,if_pos rfl]
  · rw [if_neg same,spots]
    cases found : db.feed_row other with
    | none => rfl
    | some r =>
      obtain ⟨inside,named'⟩ := feed_row_some found
      have differs : r.id ≠ row.id := by
        intro equal
        obtain rfl := List.inj_on_of_nodup_map keyed.ids inside there equal
        exact same (named'.symm.trans named)
      rw [Option.map_some,Option.map_some,Option.map_some,if_neg differs]

/-- What a real run finds at a feed is what a visit to its place finds. -/
theorem reach_feed_charted (parent : Option String) (keyed : db.Keyed) (inj : Function.Injective spot) (outline : Outline) :
    (reach_feed outline parent db).2 = tracked (db.spots spot) (outline.xml_url.map (fun url => Stop.Feed url (spot parent))).toList ∧
      (reach_feed outline parent db).1.spots spot =
        placed (db.spots spot) (outline.xml_url.map (fun url => Stop.Feed url (spot parent))).toList := by
  unfold reach_feed
  cases outline.xml_url with
  | none => exact ⟨rfl,rfl⟩
  | some url =>
    simp only [Option.map_some,Option.toList_some,tracked,placed]
    cases held : db.feed_row url with
    | none =>
      rw [Visits.found_missing (spots_none held)]
      exact ⟨rfl,spots_added held outline⟩
    | some row =>
      rw [Visits.found_there (spots_some held)]
      dsimp only
      by_cases here : row.folder_id = parent
      · rw [if_pos here,if_pos (congrArg spot here)]
        refine ⟨rfl,?_⟩
        rw [← here,← spots_some held,Function.update_eq_self]
      · rw [if_neg here,if_neg (fun same => here (inj same))]
        exact ⟨rfl,spots_moved keyed held⟩

/-- What a real run finds at a folder counts as what its name leads to. -/
theorem reach_folder_charted (charted : Charted db₀ db spot) (fresh : db.Fresh) (clocked : db.Clocked) (inside : db.has_folder parent)
    (name : String) :
    ∃ spot', Charted db₀ (reach_folder name parent db).1 spot' ∧ (∀ p, db.has_folder p → spot' p = spot p) ∧
      spot' (some (reach_folder name parent db).2.1) = (db₀.descend (spot parent) name).2 ∧
      (∀ stats, cli_count stats (.Folder (reach_folder name parent db).2.2) = cli_count stats (.Folder (db₀.descend (spot parent) name).1)) ∧
      (reach_folder name parent db).1.spots spot' = db.spots spot := by
  unfold reach_folder
  cases held : db.folder_row name parent with
  | some row =>
    obtain ⟨place,either⟩ := charted.found parent name row inside held
    refine ⟨spot,charted,fun _ _ => rfl,place,fun stats => ?_,rfl⟩
    rcases either with same | ⟨absent,new⟩
    · rw [same]
    · rw [absent]
      exact if_pos new
  | none =>
    obtain ⟨charted',kept⟩ := charted.add_folder fresh clocked inside held
    refine ⟨_,charted',kept,Function.update_self _ _ _,fun stats => by rw [(charted.missing parent name inside held).1],?_⟩
    funext url
    cases there : db.feed_row url with
    | none => rw [spots_none there,spots_none (show (db.add_folder name parent).feed_row url = none from there)]
    | some row =>
      rw [spots_some there,spots_some (show (db.add_folder name parent).feed_row url = some row from there),Function.update_of_ne]
      intro same
      exact fresh.new 0 (mem_mentioned.mpr (.inr ⟨row,(feed_row_some there).1,.inr same⟩))

/-- A real run counts what visits find at the places that the outlines led to at first. -/
theorem reach_charted (charted : Charted db₀ db spot) (fresh : db.Fresh) (clocked : db.Clocked) (inside : db.has_folder parent)
    (keyed : db.Keyed) {outlines : List OpmlOutline} (whole : (cut db parent outlines).2 = true) :
    ∃ spot', Charted db₀ (reach parent db outlines).1 spot' ∧ (∀ p, db.has_folder p → spot' p = spot p) ∧
      (∀ stats, (reach parent db outlines).2.foldl cli_count stats =
        (tracked (db.spots spot) (plan db₀ (spot parent) outlines)).foldl cli_count stats) ∧
      (reach parent db outlines).1.spots spot' = placed (db.spots spot) (plan db₀ (spot parent) outlines) := by
  induction outlines using forest_induction generalizing db parent spot with
  | nil =>
    rw [reach,plan]
    exact ⟨spot,charted,fun _ _ => rfl,fun _ => rfl,rfl⟩
  | cons outline children rest ih ih' =>
    rw [cut] at whole
    split_ifs at whole with reads
    have onward := (reach_visits fresh inside keyed (cut_one reads)).1
    rw [reach_one] at onward
    have first : ∃ spot', Charted db₀ (reach_outline parent db (.node outline children)).1 spot' ∧ (∀ p, db.has_folder p → spot' p = spot p) ∧
          (∀ stats, (reach_outline parent db (.node outline children)).2.foldl cli_count stats =
            (tracked (db.spots spot) (plan_outline db₀ (spot parent) (.node outline children))).foldl cli_count stats) ∧
          (reach_outline parent db (.node outline children)).1.spots spot' =
            placed (db.spots spot) (plan_outline db₀ (spot parent) (.node outline children)) := by
      simp only [cut_outline] at reads
      simp only [reach_outline,plan_outline]
      split_ifs at reads ⊢
      · obtain ⟨same,places⟩ := reach_feed_charted parent keyed charted.inj outline
        obtain ⟨folders,-⟩ := @reach_feed_folders _ db parent outline
        exact ⟨spot,charted.congr folders,fun _ _ => rfl,fun stats => by rw [same],places⟩
      · exact ih charted fresh clocked inside keyed reads
      · obtain ⟨onward,there,-⟩ := reach_folder_onward parent fresh inside outline.display_name
        obtain ⟨spot',charted',kept,place,counts,places⟩ := reach_folder_charted charted fresh clocked inside outline.display_name
        obtain ⟨spot'',charted'',kept',counts',places'⟩ :=
          ih charted' onward.fresh (onward.clocked clocked) there (onward.keyed keyed) reads
        rw [place,places] at counts' places'
        refine ⟨spot'',charted'',fun p held => (kept' p (onward.has_folder held)).trans (kept p held),?_,places'⟩
        intro stats
        rw [List.foldl_cons,counts,counts']
        rfl
    obtain ⟨spot',charted',kept,counts,places⟩ := first
    obtain ⟨spot'',charted'',kept',counts',places'⟩ :=
      ih' charted' onward.fresh (onward.clocked clocked) (onward.has_folder inside) (onward.keyed keyed) whole
    rw [kept parent inside,places] at counts' places'
    rw [reach,plan]
    refine ⟨spot'',charted'',fun p held => (kept' p (onward.has_folder held)).trans (kept p held),?_,?_⟩
    · intro stats
      rw [List.foldl_append,counts,counts',tracked_append,List.foldl_append]
    · rw [places',placed_append]

/-- A folder can be read iff the one that was there at first can be. -/
theorem Charted.folder_reads (charted : Charted db₀ db spot) (inside : db.has_folder parent) (name : String) :
    db.folder_reads name parent = (Stop.Folder (db₀.descend (spot parent) name).1).reads db₀ := by
  rw [FeedTables.folder_reads,Stop.reads]
  cases held : db.folder_row name parent with
  | none => rw [(charted.missing parent name inside held).1]
  | some row =>
    rcases (charted.found parent name row inside held).2 with same | ⟨absent,new⟩
    · rw [same]
    · rw [absent,Option.all_some,Option.all_none]
      unfold unchanged at new
      cases reads : row_to_feed_folder row with
      | none =>
        rw [reads] at new
        cases new
      | some folder => rfl

/-- A real run takes outlines iff all can be read that they led to at first. -/
theorem cut_charted (charted : Charted db₀ db spot) (fresh : db.Fresh) (clocked : db.Clocked) (inside : db.has_folder parent)
    (keyed : db.Keyed) (feeds_read : db.feed_reads = db₀.feed_reads) (outlines : List OpmlOutline) :
    (cut db parent outlines).2 = (plan db₀ (spot parent) outlines).all (Stop.reads db₀) := by
  induction outlines using forest_induction generalizing db parent spot with
  | nil =>
    rw [cut,plan]
    rfl
  | cons outline children rest ih ih' =>
    have first : (cut_outline db parent (.node outline children)).2 =
        (plan_outline db₀ (spot parent) (.node outline children)).all (Stop.reads db₀) := by
      rw [cut_outline,plan_outline]
      by_cases feed : outline.is_feed
      · obtain ⟨url,named⟩ := Option.isSome_iff_exists.mp (show outline.xml_url.isSome from feed)
        rw [if_pos feed,if_pos feed,named,feeds_read]
        by_cases reads : db₀.feed_reads url = true <;> simp [Stop.reads,reads]
      · rw [if_neg feed,if_neg feed]
        by_cases unnamed : outline.display_name = ""
        · rw [if_pos unnamed,if_pos unnamed]
          exact ih charted fresh clocked inside keyed feeds_read
        · rw [if_neg unnamed,if_neg unnamed,charted.folder_reads inside,List.all_cons]
          obtain ⟨onward,there,-⟩ := reach_folder_onward parent fresh inside outline.display_name
          obtain ⟨spot',charted',-,place,-⟩ := reach_folder_charted charted fresh clocked inside outline.display_name
          have below := ih charted' onward.fresh (onward.clocked clocked) there (onward.keyed keyed)
            ((onward.feeds_read clocked).trans feeds_read)
          rw [place] at below
          by_cases reads : (Stop.Folder (db₀.descend (spot parent) outline.display_name).1).reads db₀ = true
          · rw [if_pos reads,reads,Bool.true_and]
            exact below
          · rw [if_neg reads]
            simp [reads]
    rw [cut,plan,List.all_append,← first]
    by_cases whole : (cut_outline db parent (.node outline children)).2 = true
    · have onward := (reach_visits fresh inside keyed (cut_one whole)).1
      obtain ⟨spot',charted',kept,-⟩ := reach_charted charted fresh clocked inside keyed (cut_one whole)
      rw [reach_one] at onward charted'
      have later := ih' charted' onward.fresh (onward.clocked clocked) (onward.has_folder inside) (onward.keyed keyed)
        ((onward.feeds_read clocked).trans feeds_read)
      rw [kept parent inside] at later
      rw [if_pos whole,whole,Bool.true_and]
      exact later
    · rw [if_neg whole]
      simp [whole]

end
/-! ### Both count the same -/

/-- The count of what is found at feeds. -/
def feeds_found (stats : ImportStats) : Visits.Found → ℕ
  | .Added => stats.feeds_added
  | .Existing => stats.feeds_existing
  | .Moved => stats.feeds_moved

/-- What is found at a feed. -/
def Reached.at_feed : Reached → Option Visits.Found
  | .Folder _ => none
  | .FeedAdded => some .Added
  | .FeedExisting => some .Existing
  | .FeedMoved => some .Moved

section
variable {s : String → Option Place}

/-- A count that goes up by a weight. -/
theorem fold_weighs {g : ImportStats → ℕ} {c : ImportStats → Reached → ImportStats} {w : Reached → ℕ}
    (weighs : ∀ stats e, g (c stats e) = g stats + w e) (l : List Reached) (stats : ImportStats) :
    g (l.foldl c stats) = g stats + (l.map w).sum := by
  induction l generalizing stats with
  | nil => rfl
  | cons e l ih => rw [List.foldl_cons,ih,weighs,List.map_cons,List.sum_cons,Nat.add_assoc]

theorem feeds_found_fold {c : ImportStats → Reached → ImportStats}
    (counts : ∀ stats e f, feeds_found (c stats e) f = feeds_found stats f + if e.at_feed = some f then 1 else 0) (l : List Reached)
    (stats : ImportStats) (f : Visits.Found) :
    feeds_found (l.foldl c stats) f = feeds_found stats f + (l.filterMap Reached.at_feed).count f := by
  rw [fold_weighs (g := fun stats => feeds_found stats f) (fun stats e => counts stats e f)]
  congr 1
  induction l with
  | nil => rfl
  | cons e l ih =>
    rw [List.map_cons,List.sum_cons,ih,List.filterMap_cons]
    cases e.at_feed with
    | none => simp
    | some g => by_cases same : g = f <;> simp [same,Nat.add_comm]

theorem count_feeds (stats : ImportStats) (e : Reached) (f : Visits.Found) :
    feeds_found (count stats e) f = feeds_found stats f + if e.at_feed = some f then 1 else 0 := by
  rcases e with (_ | _) | _ | _ | _ <;> cases f <;> rfl

theorem cli_count_feeds [TimeCrate] (stats : ImportStats) (e : Reached) (f : Visits.Found) :
    feeds_found (cli_count stats e) f = feeds_found stats f + if e.at_feed = some f then 1 else 0 := by
  rcases e with (_ | row) | _ | _ | _
  · cases f <;> rfl
  · rw [cli_count]
    split_ifs <;> cases f <;> simp_all [feeds_found,Reached.at_feed]
  all_goals cases f <;> rfl

theorem at_feed_reached (f : Visits.Found) : (reached f).at_feed = some f := by cases f <;> rfl

theorem feeds_rehearsed (l : List Stop) :
    (l.map (Stop.rehearsed s)).filterMap Reached.at_feed = (l.filterMap Stop.visit).map (Visits.found s) := by
  induction l with
  | nil => rfl
  | cons stop l ih =>
    cases stop with
    | Folder found => exact ih
    | Feed url place =>
      rw [List.map_cons,Stop.rehearsed,List.filterMap_cons_some (at_feed_reached _),ih]
      rfl

theorem feeds_tracked (l : List Stop) : (tracked s l).filterMap Reached.at_feed = Visits.track s (l.filterMap Stop.visit) := by
  induction l generalizing s with
  | nil => rfl
  | cons stop l ih =>
    cases stop with
    | Folder found => exact ih
    | Feed url place =>
      rw [tracked,List.filterMap_cons_some (at_feed_reached _),ih]
      rfl

/-- Folders weigh the same in both. -/
theorem folders_weigh {w : Reached → ℕ} (none_else : ∀ f, w (reached f) = 0) (l : List Stop) (s' : String → Option Place) :
    ((tracked s l).map w).sum = ((l.map (Stop.rehearsed s')).map w).sum := by
  induction l generalizing s with
  | nil => rfl
  | cons stop l ih =>
    cases stop with
    | Folder found => exact congrArg (w (.Folder found) + ·) ih
    | Feed url place =>
      rw [tracked,List.map_cons,List.map_cons,List.map_cons,List.sum_cons,List.sum_cons,ih,Stop.rehearsed,none_else,none_else]

theorem stats_eq {a b : ImportStats} : a = b ↔ a.folders_created = b.folders_created ∧ a.folders_existing = b.folders_existing ∧
    ∀ f, feeds_found a f = feeds_found b f := by
  constructor
  · rintro rfl
    exact ⟨rfl,rfl,fun _ => rfl⟩
  · rintro ⟨created,existing,feeds⟩
    obtain ⟨c,e,added,there,moved⟩ := a
    obtain ⟨c',e',added',there',moved'⟩ := b
    obtain rfl : c = c' := created
    obtain rfl : e = e' := existing
    obtain rfl : added = added' := feeds .Added
    obtain rfl : there = there' := feeds .Existing
    obtain rfl : moved = moved' := feeds .Moved
    rfl

variable [TimeCrate]

/-- The folders that the command line counts as existing. -/
def cli_existing : Reached → ℕ
  | .Folder (some row) => if unchanged row then 0 else 1
  | _ => 0

/-- The counts of a real run are those of a dry run iff all folders that are found have been changed,
    no missing feed is visited twice, and as many visits go elsewhere than the feed is as go elsewhere
    than the visit before. -/
theorem counts_foretold (l : List Stop) : (tracked s l).foldl cli_count no_stats = (l.map (Stop.rehearsed s)).foldl count no_stats ↔
    (∀ row, Stop.Folder (some row) ∈ l → unchanged row = false) ∧
      ((l.filterMap Stop.visit).filter (fun v => s v.1 = none)).Pairwise (fun v w => v.1 ≠ w.1) ∧
      Visits.elsewhere s (l.filterMap Stop.visit) = Visits.turns s (l.filterMap Stop.visit) := by
  have existing (stats : ImportStats) (e : Reached) : (cli_count stats e).folders_existing = stats.folders_existing + cli_existing e := by
    rcases e with (_ | row) | _ | _ | _
    · rfl
    · by_cases same : unchanged row <;> simp [cli_count,cli_existing,same]
    all_goals rfl
  have feeds : (∀ f, feeds_found ((tracked s l).foldl cli_count no_stats) f = feeds_found ((l.map (Stop.rehearsed s)).foldl count no_stats) f) ↔
      ∀ f, (Visits.track s (l.filterMap Stop.visit)).count f = ((l.filterMap Stop.visit).map (Visits.found s)).count f := by
    refine forall_congr' (fun f => ?_)
    rw [feeds_found_fold cli_count_feeds,feeds_found_fold count_feeds,feeds_tracked,feeds_rehearsed,Nat.add_left_cancel_iff]
  -- the folders of the real run, counted over what the dry run finds
  have folders : (((tracked s l).foldl cli_count no_stats).folders_created = ((l.map (Stop.rehearsed s)).foldl count no_stats).folders_created ∧
        ((tracked s l).foldl cli_count no_stats).folders_existing = ((l.map (Stop.rehearsed s)).foldl count no_stats).folders_existing) ↔
      (l.map (Stop.rehearsed s)).foldl cli_count no_stats = (l.map (Stop.rehearsed s)).foldl count no_stats := by
    rw [stats_eq,fold_weighs cli_counted,fold_weighs existing,folders_weigh (fun f => by cases f <;> rfl) l s,
      folders_weigh (fun f => by cases f <;> rfl) l s,fold_weighs cli_counted,fold_weighs existing]
    refine ⟨fun both => ⟨both.1,both.2,fun f => ?_⟩,fun all => ⟨all.1,all.2.1⟩⟩
    rw [feeds_found_fold cli_count_feeds,feeds_found_fold count_feeds]
  rw [stats_eq,← and_assoc,folders,feeds,Visits.rehearsal_iff,cli_counts_iff]
  refine and_congr_left (fun _ => ?_)
  constructor
  · intro all row inside
    exact all (.Folder (some row)) (List.mem_map_of_mem inside)
  · intro all e inside
    obtain ⟨stop,there,rfl⟩ := List.mem_map.mp inside
    rcases stop with (_ | row) | ⟨url,place⟩
    · trivial
    · exact all row there
    · rw [Stop.rehearsed]
      cases Visits.found s (url,place) <;> trivial

/-- Feeds that a dry run puts where the real run finds them, in folders that it counts alike. -/
structure Foretold (db : FeedTables) (outlines : List OpmlOutline) : Prop where
  changed : ∀ row, Stop.Folder (some row) ∈ plan db (none,[]) outlines → unchanged row = false
  once : (((plan db (none,[]) outlines).filterMap Stop.visit).filter (fun v => db.stored v.1 = none)).Pairwise (fun v w => v.1 ≠ w.1)
  steady : Visits.elsewhere db.stored ((plan db (none,[]) outlines).filterMap Stop.visit) =
    Visits.turns db.stored ((plan db (none,[]) outlines).filterMap Stop.visit)

/-- A dry run over outlines changes nothing, and reports what the real run reports iff both end at a
    feed or a folder that cannot be read, or all folders that are there have been changed, no missing feed
    is listed twice, and as many feeds are listed elsewhere than they are as are listed elsewhere than
    before. -/
theorem import_opml_foretold {db : FeedTables} (fresh : db.Fresh) (keyed : db.Keyed) (clocked : db.Clocked) (outlines : List OpmlOutline) :
    (∃ k, leaves (Cli.import_opml true outlines db) = db.drawn k) ∧
      (reported (Cli.import_opml true outlines db) = reported (Cli.import_opml false outlines db) ↔
        (∃ stop ∈ plan db (none,[]) outlines, stop.reads db = false) ∨ Foretold db outlines) := by
  have root : db.has_folder none := rfl
  have stands : Stands db none (none,[]) := .inl rfl
  obtain ⟨k,dry⟩ := dry_walk fresh stands outlines no_stats 0
  have real := cli_walk fresh root keyed outlines no_stats
  rw [cut_charted (.start db) fresh clocked root keyed rfl outlines] at real
  change Cli.import_opml true outlines db = _ at dry
  change Cli.import_opml false outlines db = _ at real
  by_cases reads : (plan db (none,[]) outlines).all (Stop.reads db) = true
  · have whole := (cut_charted (.start db) fresh clocked root keyed rfl outlines).trans reads
    obtain ⟨-,-,-,counts,-⟩ := reach_charted (.start db) fresh clocked root keyed whole
    rw [if_pos reads] at dry real
    rw [dry,real,counts]
    refine ⟨⟨k,rfl⟩,?_⟩
    have none_stops : ¬ ∃ stop ∈ plan db (none,[]) outlines, stop.reads db = false := by
      simpa using reads
    rw [or_iff_right none_stops]
    refine Option.some_inj.trans (eq_comm.trans ((counts_foretold _).trans ?_))
    exact ⟨fun all => ⟨all.1,all.2.1,all.2.2⟩,fun all => ⟨all.changed,all.once,all.steady⟩⟩
  · rw [if_neg reads] at dry real
    rw [dry,real]
    have stops : ∃ stop ∈ plan db (none,[]) outlines, stop.reads db = false := by
      simpa using reads
    exact ⟨⟨k,rfl⟩,iff_of_true rfl (.inl stops)⟩

end
end FeedTables
end Pergamon
