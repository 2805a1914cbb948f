import CyfsNdn.Collections.Greatest
import CyfsNdn.PackageLib.MetaIndexDb
import CyfsNdn.PackageLib.SampleSemver

/-!
# The range of a version query

The query for the newest version that meets a requirement fetches the versions in a range of
integers, where the requirement gives one.  The range is made of the fields of one or two
comparators, of which it reads no operator but whether a single one is a lower or an upper
bound; a field that is left out counts as zero, and of a pre-release only the number is taken.

So the newest version may lie outside.  `query_never_hides_iff` says that the answer is the
newest version, as the query without a range gives it, exactly if that version is fetched, or
the newest that is fetched leads to the same meta.
-/

namespace CyfsNdn
namespace PackageLib

open Collections Relational
open MetaIndexDb

variable (semver : SemverCrate)

/-! ## What is fetched -/

/-- The versions of a package, with a tag where one is given. -/
def versionsOf (pkgName : String) (tag : Option String) (row : PkgVersionRow) : Bool :=
  decide (row.pkgName = pkgName) && eqParam row.tag tag

/-- A version lies in the range of the requirement; where this gives no range, it is of the
author. -/
def isFetched (author : Option String) (versionReq : VersionReq) (row : PkgVersionRow) : Bool :=
  match versionReq.comparators with
  | [c] =>
      match c.op with
      | .greater | .greaterEq => decide ((comparatorToInt c).toInt64 ≤ row.versionInt)
      | .less | .lessEq => decide (row.versionInt ≤ (comparatorToInt c).toInt64)
      | _ => eqParam row.author author
  | [c, d] =>
      if comparatorToInt d < comparatorToInt c then
        decide ((comparatorToInt d).toInt64 ≤ row.versionInt) &&
          decide (row.versionInt ≤ (comparatorToInt c).toInt64)
      else
        decide ((comparatorToInt c).toInt64 ≤ row.versionInt) &&
          decide (row.versionInt ≤ (comparatorToInt d).toInt64)
  | _ => eqParam row.author author

/-- A version of `p` meets the requirement, and none of `p` that meets it is greater. -/
structure IsNewest (cmp : Version → Version → Ordering) (db : MetaIndexDb)
    (p : PkgVersionRow → Bool) (versionReq : VersionReq) (row : PkgVersionRow) : Prop where
  stored : row ∈ db.pkgVersions.rows
  among : p row = true
  meets : ∃ v, semver.parseVersion row.version = some v ∧ semver.isMatch versionReq v = true
  top : ∀ row' ∈ db.pkgVersions.rows, p row' = true → ∀ v v',
    semver.parseVersion row.version = some v → semver.parseVersion row'.version = some v' →
      semver.isMatch versionReq v' = true → cmp v' v ≠ .gt

/-- A stored version of the package has the tag and meets the requirement. -/
def Matching (db : MetaIndexDb) (pkgName : String) (tag : Option String)
    (versionReq : VersionReq) (row : PkgVersionRow) : Prop :=
  row ∈ db.pkgVersions.rows ∧ versionsOf pkgName tag row = true ∧
    ∃ v, semver.parseVersion row.version = some v ∧ semver.isMatch versionReq v = true

/-- The answer is the meta of the greatest matching version, and no meta if there is none; and
it is what the query without the range gives. -/
structure NeverHides {M : Type} (metaFromStr : String → PkgResult M) (db : MetaIndexDb)
    (pkgName : String) (tag : Option String) (versionReq : VersionReq)
    (answer : PkgResult (Option (String × M))) : Prop where
  newest : (∃ row, Matching semver db pkgName tag versionReq row) →
    ∃ row, IsNewest semver semver.cmpPrecedence db (versionsOf pkgName tag) versionReq row ∧
      answer = db.readPkgMeta metaFromStr row.metaobjid
  none_iff : answer = .ok none ↔ ¬ ∃ row, Matching semver db pkgName tag versionReq row
  unranged : answer = db.answerFrom semver metaFromStr versionReq
    (db.getAllVersions pkgName none tag)

variable {semver}

theorem getAllVersions_eq (db : MetaIndexDb) (pkgName : String) (tag : Option String) :
    db.getAllVersions pkgName none tag = db.selectVersions (versionsOf pkgName tag) := by
  unfold getAllVersions
  congr 1
  funext row
  simp [versionsOf, eqParam]

/-- Range or not, the query fetches the rows of `isFetched`. -/
theorem fetchVersions_eq (db : MetaIndexDb) (pkgName : String) (author : Option String)
    (versionReq : VersionReq) (tag : Option String) :
    db.fetchVersions semver pkgName author versionReq tag =
      db.selectVersions fun row =>
        versionsOf pkgName tag row && isFetched author versionReq row := by
  have hall : db.getAllVersions pkgName author tag = db.selectVersions fun row =>
      versionsOf pkgName tag row && eqParam row.author author := by
    unfold getAllVersions versionsOf
    congr 1
    funext row
    simp only [Bool.and_assoc, Bool.and_comm (eqParam row.author author)]
  have hrange : ∀ minVersion maxVersion, db.getVersionsInRange pkgName minVersion maxVersion tag =
      db.selectVersions fun row => versionsOf pkgName tag row &&
        (decide (minVersion.toInt64 ≤ row.versionInt) &&
          decide (row.versionInt ≤ maxVersion.toInt64)) := by
    intro minVersion maxVersion
    unfold getVersionsInRange versionsOf
    congr 1
    funext row
    simp only [Bool.and_assoc, Bool.and_comm (eqParam row.tag tag)]
  unfold fetchVersions VersionExp.toRangeInt isFetched
  dsimp only
  match versionReq.comparators with
  | [] => exact hall
  | [c] =>
      dsimp only
      -- One bound of the range is the end of the integers.
      cases c.op with
      | greater | greaterEq => simp [hrange]
      | less | lessEq => simp [hrange]
      | exact | tilde | caret | wildcard => exact hall
  | [c, d] =>
      dsimp only
      by_cases hlt : comparatorToInt d < comparatorToInt c
      · simp only [if_pos hlt, hrange]
      · simp only [if_neg hlt, hrange]
  | _ :: _ :: _ :: _ => exact hall

/-! ## What the loop keeps -/

/-- The entries that meet a requirement, with what they are parsed to. -/
def candidates (semver : SemverCrate) (versionReq : VersionReq) (versions : List VersionEntry) :
    List (Version × String × String) :=
  versions.filterMap fun entry =>
    (semver.parseVersion entry.1).bind fun v =>
      if semver.isMatch versionReq v then some (v, entry.1, entry.2.1) else none

theorem latestVersion_eq (versionReq : VersionReq) (versions : List VersionEntry) :
    latestVersion semver versionReq versions =
      (greatest semver.cmp (candidates semver versionReq versions)).map Prod.snd := by
  -- What is kept beside its version is what the loop parses again.
  have hloop : ∀ best : Option (Version × String × String),
      (∀ b, best = some b → semver.parseVersion b.2.1 = some b.1) →
      versions.foldl (keepLatest semver versionReq) (best.map Prod.snd) =
        ((candidates semver versionReq versions).foldl
          (List.argAux fun x y => semver.cmp x.1 y.1 = .gt) best).map Prod.snd := by
    induction versions with
    | nil => exact fun _ _ => rfl
    | cons entry rest ih =>
        intro best hbest
        rw [List.foldl_cons]
        cases hparse : semver.parseVersion entry.1 with
        | none =>
            have hskip : candidates semver versionReq (entry :: rest) =
                candidates semver versionReq rest := by
              simp [candidates, hparse]
            have hkeep : keepLatest semver versionReq (best.map Prod.snd) entry =
                best.map Prod.snd := by
              simp [keepLatest, hparse]
            rw [hskip, hkeep]
            exact ih best hbest
        | some v =>
            by_cases hmatch : semver.isMatch versionReq v = true
            · have hnext : candidates semver versionReq (entry :: rest) =
                  (v, entry.1, entry.2.1) :: candidates semver versionReq rest := by
                simp [candidates, hparse, hmatch]
              rw [hnext, List.foldl_cons]
              cases best with
              | none =>
                  have hkeep : keepLatest semver versionReq none entry =
                      some (entry.1, entry.2.1) := by
                    simp [keepLatest, hparse, hmatch]
                  rw [Option.map_none, hkeep]
                  exact ih (some (v, entry.1, entry.2.1)) (by rintro _ ⟨⟩; exact hparse)
              | some b =>
                  have hb := hbest b rfl
                  have hcompare : compareVersions semver entry.1 b.2.1 = semver.cmp v b.1 := by
                    simp [compareVersions, hparse, hb]
                  by_cases hgt : semver.cmp v b.1 = .gt
                  · have hkeep : keepLatest semver versionReq (some b.2) entry =
                        some (entry.1, entry.2.1) := by
                      simp [keepLatest, hparse, hmatch, hcompare, hgt]
                    rw [Option.map_some, hkeep]
                    have hnew := ih (some (v, entry.1, entry.2.1)) (by rintro _ ⟨⟩; exact hparse)
                    simpa [List.argAux, hgt] using hnew
                  · have hkeep : keepLatest semver versionReq (some b.2) entry = some b.2 := by
                      simp [keepLatest, hparse, hmatch, hcompare, hgt]
                    rw [Option.map_some, hkeep]
                    have hold := ih (some b) (by rintro _ ⟨⟩; exact hb)
                    simpa [List.argAux, hgt] using hold
            · have hskip : candidates semver versionReq (entry :: rest) =
                  candidates semver versionReq rest := by
                simp [candidates, hparse, hmatch]
              have hkeep : keepLatest semver versionReq (best.map Prod.snd) entry =
                  best.map Prod.snd := by
                simp [keepLatest, hparse, hmatch]
              rw [hskip, hkeep]
              exact ih best hbest
  exact hloop none (by simp)

theorem mem_candidates_selectVersions {db : MetaIndexDb} {p : PkgVersionRow → Bool}
    {versionReq : VersionReq} {x : Version × String × String} :
    x ∈ candidates semver versionReq (db.selectVersions p) ↔
      ∃ row ∈ db.pkgVersions.rows, p row = true ∧
        semver.parseVersion row.version = some x.1 ∧ semver.isMatch versionReq x.1 = true ∧
          x.2 = (row.version, row.metaobjid) := by
  unfold candidates selectVersions
  simp only [List.mem_filterMap, List.mem_map, List.mem_insertionSort, List.mem_filter]
  constructor
  · rintro ⟨entry, ⟨row, ⟨hrow, hp⟩, rfl⟩, hentry⟩
    obtain ⟨v, hparse, hif⟩ := Option.bind_eq_some_iff.mp hentry
    split_ifs at hif with hmatch
    cases hif
    exact ⟨row, hrow, hp, hparse, hmatch, rfl⟩
  · rintro ⟨row, hrow, hp, hparse, hmatch, hx⟩
    refine ⟨_, ⟨row, ⟨hrow, hp⟩, rfl⟩, ?_⟩
    rw [hparse, Option.bind_some, if_pos hmatch]
    exact congrArg some (Prod.ext rfl hx.symm)

variable {M : Type} {metaFromStr : String → PkgResult M} {db : MetaIndexDb}
  {p : PkgVersionRow → Bool} {versionReq : VersionReq}

theorem answerFrom_eq (versions : List VersionEntry) :
    db.answerFrom semver metaFromStr versionReq versions =
      match latestVersion semver versionReq versions with
      | some (_, metaobjid) => db.readPkgMeta metaFromStr metaobjid
      | none => .ok none := by
  unfold answerFrom
  cases versions with
  | nil => rfl
  | cons entry rest => rfl

/-- No stored version of `p` meets the requirement. -/
theorem answerFrom_none
    (hnone : ¬ ∃ row ∈ db.pkgVersions.rows, p row = true ∧
      ∃ v, semver.parseVersion row.version = some v ∧ semver.isMatch versionReq v = true) :
    db.answerFrom semver metaFromStr versionReq (db.selectVersions p) = .ok none := by
  have hempty : candidates semver versionReq (db.selectVersions p) = [] := by
    apply List.eq_nil_iff_forall_not_mem.mpr
    intro x hx
    obtain ⟨row, hrow, hp, hparse, hmatch, -⟩ := mem_candidates_selectVersions.mp hx
    exact hnone ⟨row, hrow, hp, x.1, hparse, hmatch⟩
  rw [answerFrom_eq, latestVersion_eq, greatest_eq_none.mpr hempty]
  rfl

theorem readPkgMeta_ne_none (metaobjid : String) :
    db.readPkgMeta metaFromStr metaobjid ≠ .ok none := by
  unfold readPkgMeta
  cases db.pkgMetas.find? metaobjid with
  | none => exact fun h => nomatch h
  | some row =>
      intro h
      change (metaFromStr row.pkgMeta).bind _ = _ at h
      cases hmeta : metaFromStr row.pkgMeta with
      | error e =>
          rw [hmeta] at h
          cases h
      | ok pkgMeta =>
          rw [hmeta] at h
          cases h

section Lawful

variable [hlaws : semver.Lawful]

/-- Stored versions of one package are different ones. -/
theorem row_eq_of_parse {pkgName : String} {row row' : PkgVersionRow} {v : Version}
    (hrow : row ∈ db.pkgVersions.rows) (hrow' : row' ∈ db.pkgVersions.rows)
    (hname : row.pkgName = pkgName) (hname' : row'.pkgName = pkgName)
    (hparse : semver.parseVersion row.version = some v)
    (hparse' : semver.parseVersion row'.version = some v) : row = row' := by
  apply db.pkgVersions.eq_of_key_eq hrow hrow'
  have hversion := (hlaws.print_parse hparse).symm.trans (hlaws.print_parse hparse')
  exact Prod.ext (hname.trans hname'.symm) hversion

/-- The newest version of `p` decides the answer. -/
theorem answerFrom_newest {pkgName : String} (hp : ∀ row, p row = true → row.pkgName = pkgName)
    {row : PkgVersionRow} (hnewest : IsNewest semver semver.cmp db p versionReq row) :
    db.answerFrom semver metaFromStr versionReq (db.selectVersions p) =
      db.readPkgMeta metaFromStr row.metaobjid := by
  have := hlaws.cmp_trans
  have := hlaws.cmp_lawfulEq
  obtain ⟨v, hparse, hmatch⟩ := hnewest.meets
  have hkeys : ∀ x ∈ candidates semver versionReq (db.selectVersions p),
      ∀ y ∈ candidates semver versionReq (db.selectVersions p), x.1 = y.1 → x = y := by
    intro x hx y hy hxy
    obtain ⟨r, hr, hpr, hparser, -, hx⟩ := mem_candidates_selectVersions.mp hx
    obtain ⟨s, hs, hps, hparses, -, hy⟩ := mem_candidates_selectVersions.mp hy
    rw [← hxy] at hparses
    cases row_eq_of_parse hr hs (hp r hpr) (hp s hps) hparser hparses
    exact Prod.ext hxy (hx.trans hy.symm)
  have hgreatest : IsGreatest semver.cmp (candidates semver versionReq (db.selectVersions p))
      (v, row.version, row.metaobjid) := by
    constructor
    · exact mem_candidates_selectVersions.mpr
        ⟨row, hnewest.stored, hnewest.among, hparse, hmatch, rfl⟩
    · intro x hx
      obtain ⟨r, hr, hpr, hparser, hmatchr, -⟩ := mem_candidates_selectVersions.mp hx
      exact hnewest.top r hr hpr v x.1 hparse hparser hmatchr
  rw [answerFrom_eq, latestVersion_eq, (greatest_eq_some_iff hkeys).mpr hgreatest]
  rfl

/-- Where a version of `p` meets the requirement, there is a newest one. -/
theorem exists_newest {row : PkgVersionRow} (hrow : row ∈ db.pkgVersions.rows)
    (hp : p row = true)
    (hmeets : ∃ v, semver.parseVersion row.version = some v ∧
      semver.isMatch versionReq v = true) :
    ∃ newest, IsNewest semver semver.cmp db p versionReq newest := by
  have := hlaws.cmp_trans
  obtain ⟨v, hparse, hmatch⟩ := hmeets
  have hmem : (v, row.version, row.metaobjid) ∈
      candidates semver versionReq (db.selectVersions p) :=
    mem_candidates_selectVersions.mpr ⟨row, hrow, hp, hparse, hmatch, rfl⟩
  cases hg : greatest semver.cmp (candidates semver versionReq (db.selectVersions p)) with
  | none =>
      rw [greatest_eq_none.mp hg] at hmem
      exact absurd hmem (by simp)
  | some g =>
      obtain ⟨hgmem, htop⟩ := isGreatest_of_greatest hg
      obtain ⟨r, hr, hpr, hparser, hmatchr, -⟩ := mem_candidates_selectVersions.mp hgmem
      refine ⟨r, hr, hpr, ⟨g.1, hparser, hmatchr⟩, ?_⟩
      intro row' hrow' hp' w w' hw hw' hmatch'
      cases hparser.symm.trans hw
      exact htop (w', row'.version, row'.metaobjid)
        (mem_candidates_selectVersions.mpr ⟨row', hrow', hp', hw', hmatch', rfl⟩)

/-- The newest version in the order is one of the greatest precedence. -/
theorem IsNewest.precedence {row : PkgVersionRow}
    (h : IsNewest semver semver.cmp db p versionReq row) :
    IsNewest semver semver.cmpPrecedence db p versionReq row where
  stored := h.stored
  among := h.among
  meets := h.meets
  top row' hrow' hp' v v' hv hv' hmatch' :=
    hlaws.precedence_of_cmp (h.top row' hrow' hp' v v' hv hv' hmatch')

/-! ## The query -/

/-- The answer is the newest matching version, as without the range, exactly if this version is
fetched, or the newest one that is fetched leads to the same meta. -/
theorem query_never_hides_iff (metaFromStr : String → PkgResult M) (db : MetaIndexDb)
    (pkgName : String) (author tag : Option String) (versionReq : VersionReq) :
    NeverHides semver metaFromStr db pkgName tag versionReq
        (db.getPkgMetaByVersionExpr semver metaFromStr pkgName author versionReq tag) ↔
      ∀ row, IsNewest semver semver.cmp db (versionsOf pkgName tag) versionReq row →
        isFetched author versionReq row = true ∨
          ∃ row', IsNewest semver semver.cmp db
              (fun row => versionsOf pkgName tag row && isFetched author versionReq row)
              versionReq row' ∧
            db.readPkgMeta metaFromStr row'.metaobjid =
              db.readPkgMeta metaFromStr row.metaobjid := by
  have hname : ∀ row, versionsOf pkgName tag row = true → row.pkgName = pkgName := by
    intro row hrow
    simp only [versionsOf, Bool.and_eq_true, decide_eq_true_eq] at hrow
    exact hrow.1
  have hfetchedName : ∀ row,
      (versionsOf pkgName tag row && isFetched author versionReq row) = true →
        row.pkgName = pkgName := by
    intro row hrow
    exact hname row (Bool.and_eq_true_iff.mp hrow).1
  unfold getPkgMetaByVersionExpr
  rw [fetchVersions_eq]
  constructor
  · intro hnever row hnewest
    have hunranged := hnever.unranged
    rw [getAllVersions_eq, answerFrom_newest hname hnewest] at hunranged
    by_cases hfetched : ∃ r ∈ db.pkgVersions.rows,
        (versionsOf pkgName tag r && isFetched author versionReq r) = true ∧
          ∃ v, semver.parseVersion r.version = some v ∧ semver.isMatch versionReq v = true
    · obtain ⟨r, hr, hpr, hmeets⟩ := hfetched
      obtain ⟨row', hnewest'⟩ := exists_newest
        (p := fun row => versionsOf pkgName tag row && isFetched author versionReq row)
        hr hpr hmeets
      rw [answerFrom_newest hfetchedName hnewest'] at hunranged
      exact Or.inr ⟨row', hnewest', hunranged⟩
    · -- Nothing is fetched that meets the requirement, and the answer hides the newest.
      rw [answerFrom_none hfetched] at hunranged
      exact absurd hunranged.symm (readPkgMeta_ne_none row.metaobjid)
  · intro hfetched
    by_cases hmatching : ∃ row, Matching semver db pkgName tag versionReq row
    · obtain ⟨r, hr, hpr, hmeets⟩ := hmatching
      obtain ⟨row, hnewest⟩ := exists_newest hr hpr hmeets
      have hanswer : db.answerFrom semver metaFromStr versionReq
          (db.selectVersions fun row =>
            versionsOf pkgName tag row && isFetched author versionReq row) =
          db.readPkgMeta metaFromStr row.metaobjid := by
        rcases hfetched row hnewest with hin | ⟨row', hnewest', hsame⟩
        · have hnewest' : IsNewest semver semver.cmp db
              (fun row => versionsOf pkgName tag row && isFetched author versionReq row)
              versionReq row := by
            refine ⟨hnewest.stored, Bool.and_eq_true_iff.mpr ⟨hnewest.among, hin⟩,
              hnewest.meets, ?_⟩
            intro row' hrow' hp'
            exact hnewest.top row' hrow' (Bool.and_eq_true_iff.mp hp').1
          exact answerFrom_newest hfetchedName hnewest'
        · rw [answerFrom_newest hfetchedName hnewest', hsame]
      rw [hanswer]
      constructor
      · exact fun _ => ⟨row, hnewest.precedence, rfl⟩
      · constructor
        · exact fun hnone => absurd hnone (readPkgMeta_ne_none row.metaobjid)
        · exact fun hnone => absurd ⟨r, hr, hpr, hmeets⟩ hnone
      · rw [getAllVersions_eq, answerFrom_newest hname hnewest]
    · have hnone : ¬ ∃ row ∈ db.pkgVersions.rows,
          (versionsOf pkgName tag row && isFetched author versionReq row) = true ∧
            ∃ v, semver.parseVersion row.version = some v ∧
              semver.isMatch versionReq v = true := by
        rintro ⟨r, hr, hpr, hmeets⟩
        exact hmatching ⟨r, hr, (Bool.and_eq_true_iff.mp hpr).1, hmeets⟩
      rw [answerFrom_none hnone]
      constructor
      · exact fun h => absurd h hmatching
      · exact ⟨fun _ => hmatching, fun _ => rfl⟩
      · rw [getAllVersions_eq, answerFrom_none hmatching]

end Lawful

/-- Two versions of one package. -/
def twoVersions : PkgResult MetaIndexDb := do
  let db ← setPkgVersion sampleSemver MetaIndexDb.empty "app" "author" "1.0.0" "meta1" none 1
  let db ← setPkgVersion sampleSemver db "app" "author" "1.5.0" "meta2" none 2
  let db := db.addPkgMeta "meta1" "first" "author" none 1
  return db.addPkgMeta "meta2" "second" "author" none 2

/-- One comparator that gives the major number only. -/
def majorReq (op : Op) (major : UInt64) : VersionReq := ⟨[⟨op, major, none, none, ""⟩]⟩

theorem atLeastOne_never_hides :
    ∃ db, twoVersions = .ok db ∧
      NeverHides sampleSemver (M := String) .ok db "app" none (majorReq .greaterEq 1)
        (db.getPkgMetaByVersionExpr sampleSemver .ok "app" none (majorReq .greaterEq 1) none) := by
  have hall : (twoVersions.map fun db =>
      db.pkgVersions.rows.all (isFetched none (majorReq .greaterEq 1))) = .ok true := by
    decide
  cases hdb : twoVersions with
  | error e =>
      rw [hdb] at hall
      cases hall
  | ok db =>
      rw [hdb] at hall
      have hall : db.pkgVersions.rows.all (isFetched none (majorReq .greaterEq 1)) = true :=
        Except.ok.inj hall
      refine ⟨db, rfl, ?_⟩
      refine (query_never_hides_iff .ok db "app" none none (majorReq .greaterEq 1)).mpr ?_
      intro row hnewest
      exact Or.inl (List.all_eq_true.mp hall row hnewest.stored)

/-- `<=1` is met by 1.5.0, and the range ends with 1.0.0. -/
theorem upToOne_hides_newest :
    ∃ db, twoVersions = .ok db ∧
      ¬ NeverHides sampleSemver (M := String) .ok db "app" none (majorReq .lessEq 1)
        (db.getPkgMetaByVersionExpr sampleSemver .ok "app" none (majorReq .lessEq 1) none) := by
  have hanswer : (twoVersions.bind fun db => db.getPkgMetaByVersionExpr sampleSemver
      (M := String) .ok "app" none (majorReq .lessEq 1) none) = .ok (some ("meta1", "first")) := by
    decide
  have hall : (twoVersions.bind fun db => db.answerFrom sampleSemver (M := String) .ok
      (majorReq .lessEq 1) (db.getAllVersions "app" none none)) =
        .ok (some ("meta2", "second")) := by
    decide
  cases hdb : twoVersions with
  | error e =>
      rw [hdb] at hanswer
      cases hanswer
  | ok db =>
      rw [hdb] at hanswer hall
      refine ⟨db, rfl, ?_⟩
      intro hnever
      have hsame := (hanswer.symm.trans hnever.unranged).trans hall
      exact absurd hsame (by decide)

end PackageLib
end CyfsNdn
