import CyfsNdn.Collections.DepthFirst
import CyfsNdn.PackageLib.PackageIdForms
import CyfsNdn.PackageLib.PkgMetaQuery

/-!
# The dependencies of a package

`cacl_pkg_deps_metas` of `package-lib/src/meta_index_db.rs` and of `package-lib/src/env.rs`: a
depth-first search through the dependencies, where the packages on the path are told apart by
the texts of their ids and the finished ones by the object ids of their metas.  The maps of the
dependencies give their entries in any order.
-/

namespace CyfsNdn
namespace PackageLib

open Collections NdnLib Relational Relation

/-- A call that does not return a result: it panics, or returns an error. -/
inductive Fault where
  | panic
  | error (e : PkgError)
  deriving DecidableEq, Repr

namespace PackageMeta

/-- The package id: the name, the version and the tag. -/
def packageId (pkgMeta : PackageMeta) : String × String × Option String :=
  (pkgMeta.name, pkgMeta.version, pkgMeta.versionTag)

/-- `get_package_id().to_string()`. -/
def packageIdText (crates : PackageCrates) (pkgMeta : PackageMeta) : Except Fault String :=
  match pkgMeta.getPackageId crates with
  | some pkgId => .ok (pkgId.toString crates)
  | none => .error .panic

end PackageMeta

variable (crates : PackageCrates)

/-- What `cacl_pkg_deps_metas_impl` searches, with a `get_pkg_meta` that has to find a meta. -/
def depsSearch (getPkgMeta : String → Except Fault (String × PackageMeta)) :
    Search PackageMeta String String (String × String) Fault where
  edges := PackageMeta.deps
  resolve := fun dep => getPkgMeta (dep.1 ++ "#" ++ dep.2)
  ident := PackageMeta.packageIdText crates
  cycle := fun depPkgId => .error (.loadError depPkgId "Package dependency cycle detected")

namespace MetaIndexDb

/-- `get_pkg_meta` of the index, where a meta that is not found is an error. -/
def findPkgMeta (db : MetaIndexDb) (depId : String) : Except Fault (String × PackageMeta) :=
  match db.getPkgMeta crates depId with
  | .error e => .error (.error e)
  | .ok (some found) => .ok found
  | .ok none =>
      .error (.error (.fileNotFoundError
        ("cacl_pkg_deps_metas:pkg_meta " ++ depId ++ " not found")))

/-- What is searched in the index. -/
def search (db : MetaIndexDb) : Search PackageMeta String String (String × String) Fault :=
  depsSearch crates (db.findPkgMeta crates)

/-- `cacl_pkg_deps_metas` of the index.  The n-th visit gets its entries in the n-th order. -/
def caclPkgDepsMetas (db : MetaIndexDb) (order : Nat → PackageMeta → List (String × String))
    (fuel : Nat) (pkgMeta : PackageMeta) (deps : List (String × PackageMeta)) :
    Option (Except Fault (List (String × PackageMeta))) :=
  (db.search crates).run order fuel pkgMeta deps

/-- Two stored metas with one package id have one object id. -/
def UniqueIds (db : MetaIndexDb) : Prop :=
  ∀ x y, db.IsStored crates x → db.IsStored crates y →
    x.2.packageId = y.2.packageId → x.1 = y.1

/-- The search ends.  It returns exactly if each dependency on a path from the root is found and
no path has a package id twice, and then it has collected what is reached. -/
def ClosureHolds (db : MetaIndexDb) (root : PackageMeta) : Prop :=
  ∀ order, (db.search crates).Orders order → ∀ fuel, db.pkgMetas.rows.length < fuel →
    ∃ result, db.caclPkgDepsMetas crates order fuel root [] = some result ∧
      ((∃ deps, result = .ok deps) ↔
        (db.search crates).Resolved root ∧
          (db.search crates).NoRepeat PackageMeta.packageId root) ∧
      ∀ deps, result = .ok deps → (deps.map Prod.fst).Nodup ∧
        ∀ x, x ∈ deps ↔ (db.search crates).Reaches root x

end MetaIndexDb

/-- `cacl_pkg_deps_metas` of an environment. -/
def PackageEnv.caclPkgDepsMetas (env : PackageEnv)
    (order : Nat → PackageMeta → List (String × String)) (fuel : Nat) (pkgMeta : PackageMeta)
    (deps : List (String × PackageMeta)) :
    Option (Except Fault (List (String × PackageMeta))) :=
  (depsSearch crates fun depId => (env.getPkgMeta crates depId).mapError Fault.error).run
    order fuel pkgMeta deps

variable {crates} {db : MetaIndexDb}

namespace MetaIndexDb

/-! ## What is found -/

theorem isStored_of_resolve {dep : String × String} {x : String × PackageMeta}
    (h : (db.search crates).resolve dep = .ok x) : db.IsStored crates x := by
  have hfind : db.findPkgMeta crates (dep.1 ++ "#" ++ dep.2) = .ok x := h
  unfold findPkgMeta at hfind
  split at hfind
  · cases hfind
  · next found hget =>
      cases hfind
      exact isStored_of_getPkgMeta hget
  · cases hfind

/-- An object id belongs to one meta. -/
theorem IsStored.unique {k : String} {v v' : PackageMeta} (h : db.IsStored crates (k, v))
    (h' : db.IsStored crates (k, v')) : v = v' := by
  obtain ⟨row, hrow, hkey, hread⟩ := h
  obtain ⟨row', hrow', hkey', hread'⟩ := h'
  have heq : row = row' := db.pkgMetas.eq_of_key_eq hrow hrow' (hkey.trans hkey'.symm)
  rw [heq, hread'] at hread
  exact (Except.ok.inj hread).symm

theorem search_coherent : (db.search crates).Coherent :=
  fun h h' => (isStored_of_resolve h).unique (isStored_of_resolve h')

variable (crates db) in
/-- The texts of the ids of all stored metas. -/
def storedNames : List String :=
  db.pkgMetas.rows.filterMap fun row =>
    (PackageMeta.fromStr crates row.pkgMeta).toOption.bind fun pkgMeta =>
      (pkgMeta.packageIdText crates).toOption

theorem mem_storedNames {dep : String × String} {k i : String} {v : PackageMeta}
    (h : (db.search crates).resolve dep = .ok (k, v))
    (hi : (db.search crates).ident v = .ok i) : i ∈ db.storedNames crates := by
  obtain ⟨row, hrow, -, hread⟩ := isStored_of_resolve h
  have hname : v.packageIdText crates = .ok i := hi
  refine List.mem_filterMap.mpr ⟨row, hrow, ?_⟩
  rw [hread]
  simp [Except.toOption, hname]

/-! ## The closure -/

theorem ident_of_packageId {u v : PackageMeta} (h : u.packageId = v.packageId) :
    (db.search crates).ident u = (db.search crates).ident v := by
  obtain ⟨name, version, versionTag, deps⟩ := u
  obtain ⟨name', version', versionTag', deps'⟩ := v
  cases h
  rfl

theorem caclPkgDepsMetas_ne_none {order : Nat → PackageMeta → List (String × String)}
    {fuel : Nat} (hfuel : db.pkgMetas.rows.length < fuel) (root : PackageMeta) :
    db.caclPkgDepsMetas crates order fuel root [] ≠ none :=
  Search.run_ne_none mem_storedNames
    (Nat.lt_of_le_of_lt (List.length_filterMap_le _ _) hfuel)

/-- A search that returns has met everything that is asked for. -/
theorem closure_of_ok (hunique : db.UniqueIds crates)
    {order : Nat → PackageMeta → List (String × String)}
    (horder : (db.search crates).Orders order) {fuel : Nat} {root : PackageMeta}
    {deps : List (String × PackageMeta)}
    (h : db.caclPkgDepsMetas crates order fuel root [] = some (.ok deps)) :
    (db.search crates).Resolved root ∧
      (db.search crates).NoRepeat PackageMeta.packageId root :=
  ⟨Search.run_resolved search_coherent horder h,
    Search.run_noRepeat search_coherent horder h (fun _ _ => ident_of_packageId)
      fun hresolve hresolve' heq =>
        hunique _ _ (isStored_of_resolve hresolve) (isStored_of_resolve hresolve') heq⟩

/-- The closure is computed exactly if, where there is one to compute, each meta on a path has a
package id and no path has the text of an id twice. -/
theorem closureHolds_iff (hunique : db.UniqueIds crates) (root : PackageMeta) :
    db.ClosureHolds crates root ↔
      ((db.search crates).Resolved root ∧
          (db.search crates).NoRepeat PackageMeta.packageId root →
        (db.search crates).Named root ∧
          (db.search crates).NoRepeat (PackageMeta.packageIdText crates) root) := by
  constructor
  · intro h hclosed
    have hfuel : db.pkgMetas.rows.length < db.pkgMetas.rows.length + 1 := Nat.lt_succ_self _
    have hreturns : ∀ order, (db.search crates).Orders order →
        ∃ deps, db.caclPkgDepsMetas crates order (db.pkgMetas.rows.length + 1) root [] =
          some (.ok deps) := by
      intro order horder
      obtain ⟨result, hrun, hok, -⟩ := h order horder _ hfuel
      obtain ⟨deps, rfl⟩ := hok.mpr hclosed
      exact ⟨deps, hrun⟩
    have horder : (db.search crates).Orders fun _ => PackageMeta.deps :=
      fun _ _ => List.Perm.refl _
    obtain ⟨deps, hrun⟩ := hreturns _ horder
    have hnamed : (db.search crates).Named root := Search.run_named search_coherent horder hrun
    refine ⟨hnamed, ?_⟩
    by_contra hrepeat
    obtain ⟨order, horder', hfail⟩ := Search.exists_order_ne_ok hnamed hrepeat
    obtain ⟨deps', hrun'⟩ := hreturns order horder'
    exact hfail _ _ hrun'
  · intro h order horder fuel hfuel
    cases hrun : db.caclPkgDepsMetas crates order fuel root [] with
    | none => exact absurd hrun (caclPkgDepsMetas_ne_none hfuel root)
    | some result =>
        refine ⟨result, rfl, ⟨?_, ?_⟩, ?_⟩
        · rintro ⟨deps, rfl⟩
          exact closure_of_ok hunique horder hrun
        · intro hclosed
          obtain ⟨hnamed, hrepeat⟩ := h hclosed
          cases result with
          | ok deps => exact ⟨deps, rfl⟩
          | error e => exact absurd hrun (Search.run_ne_error horder hclosed.1 hnamed hrepeat)
        · rintro deps rfl
          exact ⟨Search.run_keys_nodup search_coherent horder hrun,
            fun x => Search.mem_run_iff search_coherent horder hrun⟩

end MetaIndexDb

/-- The index computes the closure exactly if, where there is one to compute, each meta on a path
has a package id and no path has the text of an id twice.  An environment that finds the same
metas gives the same answer. -/
theorem depsClosure_iff (hunique : db.UniqueIds crates) (root : PackageMeta) :
    (db.ClosureHolds crates root ↔
      ((db.search crates).Resolved root ∧
          (db.search crates).NoRepeat PackageMeta.packageId root →
        (db.search crates).Named root ∧
          (db.search crates).NoRepeat (PackageMeta.packageIdText crates) root)) ∧
      ∀ env : PackageEnv,
        (∀ pkgMeta, ReflTransGen (db.search crates).Dep root pkgMeta →
          ∀ dep ∈ pkgMeta.deps,
            (env.getPkgMeta crates (dep.1 ++ "#" ++ dep.2)).toOption =
              (db.getPkgMeta crates (dep.1 ++ "#" ++ dep.2)).toOption.join) →
          ∀ order, (db.search crates).Orders order → ∀ fuel,
            (env.caclPkgDepsMetas crates order fuel root []).map Except.toOption =
              (db.caclPkgDepsMetas crates order fuel root []).map Except.toOption := by
  refine ⟨MetaIndexDb.closureHolds_iff hunique root, ?_⟩
  intro env hagree order horder fuel
  symm
  unfold PackageEnv.caclPkgDepsMetas MetaIndexDb.caclPkgDepsMetas
  refine Search.run_toOption ?_ horder fuel ?_ []
  · exact fun _ => rfl
  intro pkgMeta hpath dep hdep
  have hsame := hagree pkgMeta hpath dep hdep
  show (db.findPkgMeta crates (dep.1 ++ "#" ++ dep.2)).toOption =
    ((env.getPkgMeta crates (dep.1 ++ "#" ++ dep.2)).mapError Fault.error).toOption
  have hmap : ((env.getPkgMeta crates (dep.1 ++ "#" ++ dep.2)).mapError Fault.error).toOption =
      (env.getPkgMeta crates (dep.1 ++ "#" ++ dep.2)).toOption := by
    cases env.getPkgMeta crates (dep.1 ++ "#" ++ dep.2) <;> rfl
  rw [hmap, hsame]
  unfold MetaIndexDb.findPkgMeta
  rcases db.getPkgMeta crates (dep.1 ++ "#" ++ dep.2) with e | _ | found <;> rfl

/-! ## Metas without separators -/

/-- A version that the crate reads, and no separator in the name and the tag. -/
structure PackageMeta.Plain (crates : PackageCrates) (pkgMeta : PackageMeta) : Prop where
  name : '#' ∉ pkgMeta.name.toList
  version : (crates.semver.parseVersion pkgMeta.version).isSome = true
  tag : ∀ tag, pkgMeta.versionTag = some tag → ':' ∉ tag.toList ∧ '#' ∉ tag.toList

namespace PackageMeta.Plain

variable {pkgMeta pkgMeta' : PackageMeta}

theorem hash_not_mem (laws : crates.Lawful) (h : pkgMeta.Plain crates) :
    '#' ∉ pkgMeta.versionPart.toList := by
  obtain ⟨v, hv⟩ := Option.isSome_iff_exists.mp h.version
  unfold versionPart
  split
  · next tag htag =>
      simp only [String.toList_append, List.mem_append]
      rintro ((hmem | hmem) | hmem)
      · exact (laws.version_chars hv).2 hmem
      · exact absurd hmem (by decide)
      · exact (h.tag tag htag).2 hmem
  · exact (laws.version_chars hv).2

/-- The text of the id is the one that was parsed. -/
theorem packageIdText_eq (laws : crates.Lawful) (h : pkgMeta.Plain crates) :
    pkgMeta.packageIdText crates = .ok pkgMeta.packageIdStr := by
  have hlaws := laws.semver
  obtain ⟨v, hv⟩ := Option.isSome_iff_exists.mp h.version
  have hprint : crates.semver.versionToString v = pkgMeta.version :=
    SemverCrate.Lawful.print_parse hv
  have hread : VersionExp.fromStr crates.semver pkgMeta.versionPart =
      .ok ⟨pkgMeta.versionTag, .version v⟩ := by
    unfold versionPart
    split
    · next tag htag =>
        rw [VersionExp.fromStr_tag (laws.version_chars hv).1 (h.tag tag htag).1,
          VersionExpType.fromStr_version laws hv, htag]
        rfl
    · next htag =>
        rw [VersionExp.fromStr_of_not_mem (laws.version_chars hv).1,
          VersionExpType.fromStr_version laws hv, htag]
        rfl
  have hback : (VersionExp.mk pkgMeta.versionTag (.version v)).toString crates.semver =
      pkgMeta.versionPart := by
    unfold VersionExp.toString versionPart
    cases pkgMeta.versionTag <;> simp [VersionExpType.toString, hprint]
  unfold packageIdText getPackageId packageIdStr
  rw [PackageId.parse_pair h.name (h.hash_not_mem laws), hread]
  split_ifs
  · rfl
  · show Except.ok (pkgMeta.name ++ "#" ++
      (VersionExp.mk pkgMeta.versionTag (.version v)).toString crates.semver) = _
    rw [hback]

/-- The text tells the name, the version and the tag. -/
theorem packageId_eq (laws : crates.Lawful) (h : pkgMeta.Plain crates)
    (h' : pkgMeta'.Plain crates) (heq : pkgMeta.packageIdStr = pkgMeta'.packageIdStr) :
    pkgMeta.packageId = pkgMeta'.packageId := by
  obtain ⟨v, hv⟩ := Option.isSome_iff_exists.mp h.version
  obtain ⟨v', hv'⟩ := Option.isSome_iff_exists.mp h'.version
  have hcolon := (laws.version_chars hv).1
  have hcolon' := (laws.version_chars hv').1
  have hlist : pkgMeta.name.toList ++ '#' :: pkgMeta.versionPart.toList =
      pkgMeta'.name.toList ++ '#' :: pkgMeta'.versionPart.toList := by
    simpa [packageIdStr] using congrArg String.toList heq
  obtain ⟨hname, hpart⟩ := ObjId.append_cons_inj_of_not_mem h.name h'.name hlist
  have hversion : pkgMeta.version = pkgMeta'.version ∧
      pkgMeta.versionTag = pkgMeta'.versionTag := by
    unfold versionPart at hpart
    cases htag : pkgMeta.versionTag with
    | none =>
        cases htag' : pkgMeta'.versionTag with
        | none => exact ⟨String.toList_injective (by simpa [htag, htag'] using hpart), rfl⟩
        | some tag' =>
            -- Only one of the two has a colon.
            rw [htag, htag'] at hpart
            exact absurd (hpart ▸ hcolon) (by simp)
    | some tag =>
        cases htag' : pkgMeta'.versionTag with
        | none =>
            rw [htag, htag'] at hpart
            exact absurd (hpart ▸ hcolon') (by simp)
        | some tag' =>
            have hboth : pkgMeta.version.toList ++ ':' :: tag.toList =
                pkgMeta'.version.toList ++ ':' :: tag'.toList := by
              simpa [htag, htag'] using hpart
            obtain ⟨hfirst, hlast⟩ := ObjId.append_cons_inj_of_not_mem hcolon hcolon' hboth
            exact ⟨String.toList_injective hfirst, congrArg some (String.toList_injective hlast)⟩
  simp only [packageId, String.toList_injective hname, hversion.1, hversion.2]

end PackageMeta.Plain

/-- Metas without separators always have their closure computed. -/
theorem MetaIndexDb.closureHolds_of_plain (laws : crates.Lawful) (hunique : db.UniqueIds crates)
    {root : PackageMeta} (hroot : root.Plain crates)
    (hstored : ∀ x, db.IsStored crates x → x.2.Plain crates) : db.ClosureHolds crates root := by
  have hplain : ∀ u, ReflTransGen (db.search crates).Dep root u → u.Plain crates := by
    intro u hu
    rcases ReflTransGen.cases_tail hu with rfl | ⟨w, -, k, d, -, hresolve⟩
    · exact hroot
    · exact hstored _ (isStored_of_resolve hresolve)
  rw [closureHolds_iff hunique]
  rintro ⟨-, hrepeat⟩
  refine ⟨fun u hu => ⟨_, (hplain u hu).packageIdText_eq laws⟩, fun u v hu huv heq => ?_⟩
  have hv := hplain v (hu.trans huv.to_reflTransGen)
  rw [(hplain u hu).packageIdText_eq laws, hv.packageIdText_eq laws] at heq
  exact hrepeat u v hu huv ((hplain u hu).packageId_eq laws hv (Except.ok.inj heq))

/-! ## Runs -/

/-- A library that depends on nothing. -/
def libMeta : PackageMeta := ⟨"pub.lib", "1.0.0", none, []⟩

/-- Two packages that depend on it. -/
def uiMeta : PackageMeta := ⟨"pub.ui", "1.0.0", none, [("pub.lib", "pkg:01")]⟩

def netMeta : PackageMeta := ⟨"pub.net", "1.0.0", none, [("pub.lib", "pkg:01")]⟩

/-- An application that depends on both. -/
def appMeta : PackageMeta :=
  ⟨"pub.app", "1.0.0", none, [("pub.ui", "pkg:02"), ("pub.net", "pkg:03")]⟩

/-- The text of a meta. -/
def metaText (pkgMeta : PackageMeta) : String :=
  sampleJcs (.object [("create_time", .number (.natural 0)),
    ("deps", .object (pkgMeta.deps.map fun dep => (dep.1, .string dep.2))),
    ("last_update_time", .number (.natural 0)), ("name", .string pkgMeta.name),
    ("version", .string pkgMeta.version)])

/-- The index of the packages that others depend on. -/
def libDb : MetaIndexDb :=
  ((MetaIndexDb.empty.addPkgMeta "pkg:01" (metaText libMeta) "pub" none 0).addPkgMeta
    "pkg:02" (metaText uiMeta) "pub" none 0).addPkgMeta "pkg:03" (metaText netMeta) "pub" none 0

/-- The environment with this index. -/
def libEnv : PackageEnv := ⟨⟨"linux", none, libDb⟩, []⟩

/-- The metas of the index are read back. -/
theorem libMetas_read :
    PackageMeta.fromStr samplePackageCrates (metaText libMeta) = .ok libMeta ∧
      PackageMeta.fromStr samplePackageCrates (metaText uiMeta) = .ok uiMeta ∧
      PackageMeta.fromStr samplePackageCrates (metaText netMeta) = .ok netMeta := by
  decide

theorem libMeta_stored {x : String × PackageMeta}
    (h : libDb.IsStored samplePackageCrates x) :
    x = ("pkg:01", libMeta) ∨ x = ("pkg:02", uiMeta) ∨ x = ("pkg:03", netMeta) := by
  obtain ⟨row, hrow, hkey, hread⟩ := h
  obtain ⟨k, v⟩ := x
  have hrows : libDb.pkgMetas.rows = [⟨"pkg:01", metaText libMeta, "pub", "", 0⟩,
      ⟨"pkg:02", metaText uiMeta, "pub", "", 0⟩, ⟨"pkg:03", metaText netMeta, "pub", "", 0⟩] := rfl
  obtain ⟨hlib, hui, hnet⟩ := libMetas_read
  rw [hrows] at hrow
  simp only [List.mem_cons, List.not_mem_nil, or_false] at hrow
  rcases hrow with rfl | rfl | rfl
  · obtain rfl := Except.ok.inj (hread.symm.trans hlib)
    exact .inl (congrArg (·, libMeta) hkey.symm)
  · obtain rfl := Except.ok.inj (hread.symm.trans hui)
    exact .inr (.inl (congrArg (·, uiMeta) hkey.symm))
  · obtain rfl := Except.ok.inj (hread.symm.trans hnet)
    exact .inr (.inr (congrArg (·, netMeta) hkey.symm))

/-- How far a meta is from the library. -/
def metaRank (pkgMeta : PackageMeta) : Nat :=
  if pkgMeta = libMeta then 0 else if pkgMeta = appMeta then 2 else 1

/-- The application and what it needs. -/
def libMetas : List PackageMeta := [appMeta, uiMeta, netMeta, libMeta]

/-- Each dependency is found, and it is nearer to the library. -/
theorem libDeps_resolve :
    ∀ u ∈ libMetas, ∀ dep ∈ u.deps, ∃ x,
      (libDb.search samplePackageCrates).resolve dep = .ok x ∧
        x.2 ∈ libMetas ∧ metaRank x.2 < metaRank u := by
  have hui : (libDb.search samplePackageCrates).resolve ("pub.ui", "pkg:02") =
      .ok ("pkg:02", uiMeta) := by decide +kernel
  have hnet : (libDb.search samplePackageCrates).resolve ("pub.net", "pkg:03") =
      .ok ("pkg:03", netMeta) := by decide +kernel
  have hlib : (libDb.search samplePackageCrates).resolve ("pub.lib", "pkg:01") =
      .ok ("pkg:01", libMeta) := by decide +kernel
  intro u hu dep hdep
  simp only [libMetas, List.mem_cons, List.not_mem_nil, or_false] at hu
  rcases hu with rfl | rfl | rfl | rfl
  · simp only [appMeta, List.mem_cons, List.not_mem_nil, or_false] at hdep
    rcases hdep with rfl | rfl
    · exact ⟨_, hui, by decide, by decide⟩
    · exact ⟨_, hnet, by decide, by decide⟩
  · rw [List.mem_singleton.mp hdep]
    exact ⟨_, hlib, by decide, by decide⟩
  · rw [List.mem_singleton.mp hdep]
    exact ⟨_, hlib, by decide, by decide⟩
  · cases hdep

theorem libDeps_step {u v : PackageMeta} (hu : u ∈ libMetas)
    (h : (libDb.search samplePackageCrates).Dep u v) :
    v ∈ libMetas ∧ metaRank v < metaRank u := by
  obtain ⟨k, dep, hdep, hresolve⟩ := h
  obtain ⟨x, hx, hmem, hrank⟩ := libDeps_resolve u hu dep hdep
  obtain rfl := Except.ok.inj (hx.symm.trans hresolve)
  exact ⟨hmem, hrank⟩

theorem libDeps_path {u v : PackageMeta} (hu : u ∈ libMetas)
    (h : TransGen (libDb.search samplePackageCrates).Dep u v) :
    v ∈ libMetas ∧ metaRank v < metaRank u := by
  induction h with
  | single hstep => exact libDeps_step hu hstep
  | tail _ hstep ih =>
      obtain ⟨hmem, hrank⟩ := libDeps_step ih.1 hstep
      exact ⟨hmem, hrank.trans ih.2⟩

theorem libDeps_reached {u : PackageMeta}
    (h : ReflTransGen (libDb.search samplePackageCrates).Dep appMeta u) : u ∈ libMetas := by
  rcases reflTransGen_iff_eq_or_transGen.mp h with rfl | h
  · decide
  · exact (libDeps_path (by decide) h).1

/-- The library is collected once, though two packages depend on it. -/
theorem sharedLib_collected :
    libDb.ClosureHolds samplePackageCrates appMeta ∧
      (libDb.search samplePackageCrates).Resolved appMeta ∧
      (libDb.search samplePackageCrates).NoRepeat PackageMeta.packageId appMeta ∧
      ∀ order, (libDb.search samplePackageCrates).Orders order → ∀ fuel,
        (libEnv.caclPkgDepsMetas samplePackageCrates order fuel appMeta []).map
            Except.toOption =
          (libDb.caclPkgDepsMetas samplePackageCrates order fuel appMeta []).map
            Except.toOption := by
  have hunique : libDb.UniqueIds samplePackageCrates := by
    intro x y hx hy heq
    rcases libMeta_stored hx with rfl | rfl | rfl <;>
      rcases libMeta_stored hy with rfl | rfl | rfl <;>
        first | rfl | exact absurd heq (by decide)
  have hresolved : (libDb.search samplePackageCrates).Resolved appMeta := by
    intro u hu dep hdep
    obtain ⟨x, hx, -⟩ := libDeps_resolve u (libDeps_reached hu) dep hdep
    exact ⟨x, hx⟩
  have hdiffer : ∀ u ∈ libMetas, ∀ v ∈ libMetas, metaRank v < metaRank u →
      PackageMeta.packageId u ≠ PackageMeta.packageId v ∧
        u.packageIdText samplePackageCrates ≠ v.packageIdText samplePackageCrates := by
    decide
  have hnamed : ∀ u ∈ libMetas, (u.packageIdText samplePackageCrates).isOk = true := by
    decide
  obtain ⟨hclosure, henv⟩ := depsClosure_iff hunique appMeta
  refine ⟨hclosure.mpr fun _ => ⟨?_, ?_⟩, hresolved, ?_, henv libEnv ?_⟩
  · intro u hu
    have hok := hnamed u (libDeps_reached hu)
    show ∃ i, u.packageIdText samplePackageCrates = .ok i
    cases htext : u.packageIdText samplePackageCrates with
    | ok i => exact ⟨i, rfl⟩
    | error e => rw [htext] at hok; cases hok
  · intro u v hu huv
    obtain ⟨hv, hrank⟩ := libDeps_path (libDeps_reached hu) huv
    exact (hdiffer u (libDeps_reached hu) v hv hrank).2
  · intro u v hu huv
    obtain ⟨hv, hrank⟩ := libDeps_path (libDeps_reached hu) huv
    exact (hdiffer u (libDeps_reached hu) v hv hrank).1
  · have hsame : ∀ u ∈ libMetas, ∀ dep ∈ u.deps,
        (libEnv.getPkgMeta samplePackageCrates (dep.1 ++ "#" ++ dep.2)).toOption =
          (libDb.getPkgMeta samplePackageCrates (dep.1 ++ "#" ++ dep.2)).toOption.join := by
      decide +kernel
    exact fun u hu => hsame u (libDeps_reached hu)

/-- A version that the crate reads, with a tag that has a colon: the call panics. -/
theorem colonTag_panics :
    MetaIndexDb.empty.UniqueIds samplePackageCrates ∧
      (samplePackageCrates.semver.parseVersion "1.0.0").isSome = true ∧
      MetaIndexDb.empty.caclPkgDepsMetas samplePackageCrates (fun _ => PackageMeta.deps) 1
        ⟨"app", "1.0.0", some "a:b", []⟩ [] = some (.error .panic) ∧
      ¬ MetaIndexDb.empty.ClosureHolds samplePackageCrates
        ⟨"app", "1.0.0", some "a:b", []⟩ := by
  have hnone : ∀ {x}, ¬ MetaIndexDb.empty.IsStored samplePackageCrates x := by
    rintro x ⟨row, hrow, -⟩
    cases hrow
  have hunique : MetaIndexDb.empty.UniqueIds samplePackageCrates :=
    fun x _ hx => absurd hx hnone
  refine ⟨hunique, by decide, by decide, fun hclosure => ?_⟩
  have hstop : ∀ {u v}, ¬ (MetaIndexDb.empty.search samplePackageCrates).Dep u v := by
    rintro u v ⟨k, d, -, hresolve⟩
    exact hnone (MetaIndexDb.isStored_of_resolve hresolve)
  have hresolved : (MetaIndexDb.empty.search samplePackageCrates).Resolved
      ⟨"app", "1.0.0", some "a:b", []⟩ := by
    intro u hu d hd
    rcases ReflTransGen.cases_tail hu with rfl | ⟨w, -, hstep⟩
    · cases hd
    · exact absurd hstep hstop
  have hrepeat : (MetaIndexDb.empty.search samplePackageCrates).NoRepeat PackageMeta.packageId
      ⟨"app", "1.0.0", some "a:b", []⟩ := by
    intro u v _ huv
    obtain ⟨w, hstep, -⟩ := TransGen.head'_iff.mp huv
    exact absurd hstep hstop
  obtain ⟨hnamed, -⟩ :=
    (MetaIndexDb.closureHolds_iff hunique _).mp hclosure ⟨hresolved, hrepeat⟩
  obtain ⟨i, hi⟩ := hnamed _ ReflTransGen.refl
  have hpanic : PackageMeta.packageIdText samplePackageCrates
      ⟨"app", "1.0.0", some "a:b", []⟩ = .error .panic := by decide
  cases hpanic.symm.trans hi

end PackageLib
end CyfsNdn
