import RepoAtlas.Proofs.Linking

/-!
# `RepoAtlas.Proofs.Linking.Keeping`: what an edit keeps of a links file

A change writes the whole file anew from the links that were read. So it keeps of every entry what
makes a link of it, both ends and the date, and nothing else; whatever is no link is gone. A file
that makes no links, because it cannot be read or holds something other than an array, counts as a
file without links, and a change writes over it. A request that changes nothing, or is refused, or
is stopped by the system, leaves the file octet by octet as it was.

* `remainder?`: what an edit keeps of an entry, and `IsRemainder`: which members that is.
* `Gives`: the entries that a primary file and the files after it give.
* `perform_outcome`: a request either spares the files or writes the changed list.
* `edits_keep_links`: what stands in the primary file after a request, for every content of it.
-/

set_option autoImplicit false

namespace RepoAtlas

open RepoAtlas.Module RepoAtlas.Text

/-! ### What is kept of an entry -/

namespace SideFile

/-- What an edit keeps of an entry; entries that make no link are not kept. -/
def remainder? (entry : Json) : Option Json :=
  (linkOf? entry).map Link.toJson

/-- What is kept of an entry: both its ends, its date if that is a text with something in it, and no
other member. -/
structure IsRemainder (entry kept : Json) : Prop where
  source_eq : kept.member? "source" = entry.member? "source"
  target_eq : kept.member? "target" = entry.member? "target"
  createdAt_eq : kept.member? "createdAt" = (filledText? entry "createdAt").map .str
  other_eq (name : CodeText) (hname : name ∉ (["source", "target", "createdAt"] : List CodeText)) :
    kept.member? name = none

/-- What is kept of an entry are its two ends and the time it was made. -/
theorem isRemainder_of_remainder? {entry kept : Json} (h : remainder? entry = some kept) :
    IsRemainder entry kept := by
  obtain ⟨link, hlink, rfl⟩ := Option.map_eq_some_iff.mp h
  obtain ⟨hsource, htarget, hdate⟩ := linkOf?_eq_some_iff.mp hlink
  -- No time and an empty time are the same: neither is written.
  have hfilled : filledText? entry "createdAt" =
      if link.createdAt = "" then none else some link.createdAt := by
    rw [filledText?, ← hdate]
    cases htext : text? entry "createdAt" with
    | none => rfl
    | some text => by_cases hempty : text = "" <;> simp [hempty]
  refine ⟨?_, ?_, ?_, fun name hname => ?_⟩
  · rw [(filledText?_eq_some_iff.mp hsource).1]
    rfl
  · rw [(filledText?_eq_some_iff.mp htarget).1]
    rfl
  · rw [hfilled]
    unfold Link.toJson
    split <;> rfl
  · simp only [List.mem_cons, List.not_mem_nil, or_false, not_or] at hname
    obtain ⟨hsource, htarget, hdate⟩ := hname
    unfold Link.toJson
    split <;> simp [Json.member?, List.lookup_cons, beq_false_of_ne hsource,
      beq_false_of_ne htarget, beq_false_of_ne hdate]

/-- The entries of what a links file says. -/
def linkEntries : Option Json → List Json
  | some (.arr entries) => entries
  | _ => []

/-- The links of a content are the entries that are links. -/
theorem linksOf_eq_filterMap (content : Option Json) :
    (content.map linksOf).getD [] = (linkEntries content).filterMap linkOf? := by
  cases content with
  | none => rfl
  | some value => cases value <;> rfl

/-- Whether an entry names a pair of modules as its ends. -/
def namesPair (source target : CodeText) (entry : Json) : Bool :=
  text? entry "source" = some source && text? entry "target" = some target

/-- A link joins two modules if its entry names them. -/
theorem namesPair_eq_joins {entry : Json} {link : Link} (h : linkOf? entry = some link)
    (source target : CodeText) : namesPair source target entry = link.joins source target := by
  obtain ⟨hsource, htarget, -⟩ := linkOf?_eq_some_iff.mp h
  obtain ⟨hsource, -⟩ := Option.filter_eq_some_iff.mp hsource
  obtain ⟨htarget, -⟩ := Option.filter_eq_some_iff.mp htarget
  simp only [namesPair, Link.joins, hsource, htarget, Option.some.injEq]

/-- To drop links is to drop the entries that make them. -/
theorem map_filter_links (source target : CodeText) (entries : List Json) :
    ((entries.filterMap linkOf?).filter fun link => !link.joins source target).map Link.toJson
      = (entries.filter fun entry => !namesPair source target entry).filterMap remainder? := by
  -- Entry by entry: what is no link is dropped on both sides, and a link is dropped where its entry
  -- names the pair.
  induction entries with
  | nil => rfl
  | cons entry rest ih =>
    cases hlink : linkOf? entry with
    | none =>
      have hkept : remainder? entry = none := congrArg (Option.map Link.toJson) hlink
      rw [List.filterMap_cons_none hlink, ih, List.filter_cons]
      split
      · rw [List.filterMap_cons_none hkept]
      · rfl
    | some link =>
      have hkept : remainder? entry = some link.toJson := congrArg (Option.map Link.toJson) hlink
      rw [List.filterMap_cons_some hlink, List.filter_cons, List.filter_cons,
        namesPair_eq_joins hlink]
      split
      · rw [List.map_cons, ih, List.filterMap_cons_some hkept]
      · exact ih

/-- The entries that a primary file gives, and those after it if it says nothing. -/
inductive Gives (tree : Tree) (root place : String) (places : List String) : List Json → Prop where
  /-- The primary file holds an array. -/
  | array {entries : List Json}
      (h : read tree (Path.below root place) = .ok (.content (.arr entries))) :
      Gives tree root place places entries
  /-- The primary file holds some other value. -/
  | value {value : Json} (h : read tree (Path.below root place) = .ok (.content value))
      (hnull : value ≠ .null) (harray : value.arr? = none) : Gives tree root place places []
  /-- The primary file is missing, unreadable or null. -/
  | others {reading : Reading} {content : Option Json}
      (h : read tree (Path.below root place) = .ok reading)
      (hnothing : ∀ value, reading = .content value → value = .null)
      (hfirst : (first tree root places).outcome = .ok content) :
      Gives tree root place places (linkEntries content)

/-- The entries come from the primary file, or from another if that holds nothing. -/
theorem gives_of_first {tree : Tree} {root place : String} {places : List String}
    {content : Option Json} (h : (first tree root (place :: places)).outcome = .ok content) :
    Gives tree root place places (linkEntries content) := by
  rw [first, Traced.outcome_bind_eq_ok_iff] at h
  obtain ⟨reading, hreading, hnext⟩ := h
  simp only [Traced.ofExcept] at hreading
  -- All that is not a value in the primary file leads to the other places.
  have hothers (hnothing : ∀ value, reading = .content value → value = .null)
      (hfirst : (first tree root places).outcome = .ok content) :
      Gives tree root place places (linkEntries content) :=
    .others hreading hnothing hfirst
  cases reading with
  | missing => exact hothers (fun _ => Reading.noConfusion) hnext
  | unreadable reason =>
    refine hothers (fun _ => Reading.noConfusion) ?_
    obtain ⟨-, -, hfirst⟩ := Traced.outcome_bind_eq_ok_iff.mp hnext
    exact hfirst
  | content value =>
    cases value with
    | null => exact hothers (fun value hvalue => by cases hvalue; rfl) hnext
    | arr entries =>
      cases hnext
      exact .array hreading
    | bool | int | float | str | obj =>
      cases hnext
      exact .value hreading Json.noConfusion rfl

/-- An array in the primary file gives its entries and no others. -/
theorem linkEntries_of_array {tree : Tree} {root place : String} {places : List String}
    {entries : List Json} {content : Option Json}
    (h : read tree (Path.below root place) = .ok (.content (.arr entries)))
    (hfirst : (first tree root (place :: places)).outcome = .ok content) :
    linkEntries content = entries := by
  rw [first, Traced.outcome_bind_eq_ok_iff] at hfirst
  obtain ⟨reading, hreading, hnext⟩ := hfirst
  simp only [Traced.ofExcept, h] at hreading
  cases hreading
  cases hnext
  rfl

end SideFile

/-! ### Requests -/

open SideFile

/-- What a request that changes something makes of the entries of a links file. -/
def LinkRequest.edited (entries : List Json) : LinkRequest → List Json
  | .add now _ source target =>
    entries.filterMap remainder? ++
      [Link.toJson (Link.joined { source, target, createdAt := now.text })]
  | .remove source target =>
    (entries.filter fun entry => !namesPair source target entry).filterMap remainder?

/-- What becomes of the files when a request is carried out: everything that was there stays as it
was, or the primary file holds the list that the request leads to. -/
inductive LinkRequest.Outcome (root place : String) (places : List String) (s : Session)
    (request : LinkRequest) : LinkReply × Session → Prop where
  | spared {reply : LinkReply} {later : Session} (hreply : reply.isChange = false)
      (hextends : s.tree.Extends later.tree) : request.Outcome root place places s (reply, later)
  | rewritten {reply : LinkReply} {later : Session} {links : List Link}
      (hreply : reply.isChange = true) (hholds : Work.Holds root (place :: places) s links)
      (hnull : Path.hasNull (Path.below root place) = false)
      (hwritten : later.tree.readOctets (Path.below root place)
        = .ok (Utf8.encode (linksText (request.onList links).2))) :
      request.Outcome root place places s (reply, later)

namespace Work

variable {root place : String} {places : List String} {links : List Link} {s : Session}

/-- Where reading the links fails, the request fails and leaves the tree. -/
theorem loadLinks_of_not_holds {failure : Failure} (quiet : s.IsQuiet)
    (h : (SideFile.links s.tree root places).outcome = .error failure) :
    ∃ later, loadLinks root places s = .error failure later ∧ later.tree = s.tree := by
  obtain ⟨later, hlater, hrun⟩ := traced_eq (fun tree => SideFile.links tree root places) s
  rw [h] at hrun
  exact ⟨later, hrun, hlater.tree_eq quiet⟩

/-- Links are stored and told of: either that is stopped with everything as it was, or the primary
file holds their text. -/
theorem storeLinks_then {α : Type} (hroot : Path.isAbsolute root = true) (quiet : s.IsQuiet)
    (links : List Link) (text : String → String) (answer : α) :
    let result := (storeLinks root (place :: places) links >>= fun path =>
      note .info .overrides (text path) >>= fun _ => pure answer) s
    (∃ failure later, result = .error failure later ∧ s.tree.Extends later.tree) ∨
      ∃ later, result = .ok answer later ∧
        later.tree.readOctets (Path.below root place) = .ok (Utf8.encode (linksText links)) := by
  intro result
  rcases save_cases (Path.below root place) (linksText links) s with
    ⟨failure, tree, hsave, -, hextends⟩ | ⟨tree, hsave, hwritten⟩
  · -- Saving was blocked: whatever comes after it is not reached.
    refine Or.inl ⟨failure, { s with tree }, ?_, hextends⟩
    exact bind_of_error (bind_of_error hsave _) _
  · rw [Path.join_of_isAbsolute (Path.isAbsolute_below hroot place)] at hwritten
    have hstore : storeLinks root (place :: places) links s
        = .ok (Path.below root place) { s with tree } := by
      rw [storeLinks, bind_of_ok hsave]
      rfl
    -- The file is written; the notice that follows does not change the tree.
    obtain ⟨later, htold, hlater⟩ :=
      pass_eq_ok ⟨.info, .overrides, text (Path.below root place)⟩ { s with tree }
    refine Or.inr ⟨later, ?_, ?_⟩
    · show (storeLinks root (place :: places) links >>= _) s = _
      rw [bind_of_ok hstore, note, bind_of_ok htold]
      rfl
    · rw [hlater.tree_eq quiet]
      exact hwritten

end Work

section Step

variable {root place : String} {places : List String} {links : List Link} {s : Session}

open Work

/-- A request that changes no tree spares the file. -/
theorem outcome_of_tree_eq {request : LinkRequest} {reply : LinkReply} {later : Session}
    (hreply : reply.isChange = false) (htree : later.tree = s.tree) :
    request.Outcome root place places s (reply, later) :=
  .spared hreply (htree ▸ .refl s.tree)

/-- A request that stores what it makes of the links. -/
theorem outcome_of_stored {α : Type} (request : LinkRequest) (reply : α → LinkReply) (answer : α)
    (text : String → String) (hroot : Path.isAbsolute root = true) {loaded : Session}
    (quiet : loaded.IsQuiet) (htree : loaded.tree = s.tree)
    (hholds : Holds root (place :: places) s links) (hreply : (reply answer).isChange = true) :
    request.Outcome root place places s (LinkReply.ofResult reply
      ((storeLinks root (place :: places) (request.onList links).2 >>= fun path =>
        note .info .overrides (text path) >>= fun _ => pure answer) loaded)) := by
  rcases storeLinks_then hroot quiet (request.onList links).2 text answer with
    ⟨failure, later, hrun, hextends⟩ | ⟨later, hrun, hwritten⟩
  · rw [hrun]
    exact .spared rfl (htree ▸ hextends)
  · rw [hrun]
    exact .rewritten hreply hholds (hasNull_of_links hholds) hwritten

/-- A link between known modules that is not there yet is stored after the others. -/
theorem add_outcome_of_absent (hroot : Path.isAbsolute root = true) (quiet : s.IsQuiet)
    (now : Instant) {known : List CodeText} {source target : CodeText}
    (hmissing : ¬(source = "" ∨ target = "")) (hsame : source ≠ target)
    (hunknown : ¬(source ∉ known ∨ target ∉ known))
    (hholds : Holds root (place :: places) s links)
    (hfind : links.find? (·.joins source target) = none) :
    (LinkRequest.add now known source target).Outcome root place places s
      (LinkReply.ofResult (fun answer => .added answer.1 answer.2)
        (addLink root (place :: places) known source target { s with now })) := by
  have hquiet : Session.IsQuiet { s with now } := quiet
  have hnow : Holds root (place :: places) { s with now } links := hholds
  obtain ⟨loaded, hload, hlater⟩ := loadLinks_of_holds hnow
  have hclock : loaded.now = now := hlater.now_eq
  have htree : loaded.tree = s.tree := hlater.tree_eq hquiet
  -- Both ends are known and no link joins them, so the request asks for a new link at the end of
  -- the list.
  have hlist : (LinkRequest.onList links (.add now known source target)).2
      = links ++ [{ source, target, createdAt := now.text }] := by
    rw [LinkRequest.onList, if_neg hmissing, if_neg hsame, if_neg hunknown, hfind]
  have hstored := outcome_of_stored (.add now known source target)
    (fun answer : Link × Bool => LinkReply.added answer.1 answer.2)
    ({ source, target, createdAt := now.text }, true)
    (fun path => s!"Added manual link {source} -> {target} in {path}") hroot
    (hlater.isQuiet hquiet) htree hholds rfl
  have hget : ∀ next : Session → Work (Link × Bool),
      (get >>= next) loaded = next loaded loaded := fun _ => rfl
  -- The time of the link is that of the session, which loading leaves.
  rw [addLink_of_known hmissing hsame hunknown, bind_of_ok hload]
  simp only [hfind]
  rw [hget, hclock, ← hlist]
  exact hstored

/-- Adding a link spares the file, or rewrites it with the link at the end. -/
theorem add_outcome (hroot : Path.isAbsolute root = true) (quiet : s.IsQuiet) (now : Instant)
    (known : List CodeText) (source target : CodeText) :
    (LinkRequest.add now known source target).Outcome root place places s
      ((LinkRequest.add now known source target).perform root (place :: places) s) := by
  have hperform : (LinkRequest.add now known source target).perform root (place :: places) s
      = LinkReply.ofResult (fun answer => .added answer.1 answer.2)
        (addLink root (place :: places) known source target { s with now }) := rfl
  rw [hperform]
  -- Ends that are missing, equal or unknown are refused before any file is read.
  by_cases hmissing : source = "" ∨ target = ""
  · rw [addLink_of_missingEnd hmissing]
    exact outcome_of_tree_eq rfl rfl
  by_cases hsame : source = target
  · rw [addLink_of_selfLink hmissing hsame]
    exact outcome_of_tree_eq rfl rfl
  by_cases hunknown : source ∉ known ∨ target ∉ known
  · rw [addLink_of_unknown hmissing hsame hunknown]
    exact outcome_of_tree_eq rfl rfl
  have hquiet : Session.IsQuiet { s with now } := quiet
  cases hlinks : (SideFile.links s.tree root (place :: places)).outcome with
  | error failure =>
    obtain ⟨loaded, hload, htree⟩ := loadLinks_of_not_holds hquiet hlinks
    rw [addLink_of_known hmissing hsame hunknown, bind_of_error hload]
    exact outcome_of_tree_eq rfl htree
  | ok links =>
    have hnow : Holds root (place :: places) { s with now } links := hlinks
    cases hfind : links.find? (·.joins source target) with
    | some link =>
      obtain ⟨later, hrun, hlater⟩ := addLink_of_found hmissing hsame hunknown hnow hfind
      rw [hrun]
      exact outcome_of_tree_eq rfl (hlater.tree_eq hquiet)
    | none =>
      exact add_outcome_of_absent hroot quiet now hmissing hsame hunknown hlinks hfind

/-- Removing a link spares the file, or rewrites it without the link. -/
theorem remove_outcome (hroot : Path.isAbsolute root = true) (quiet : s.IsQuiet)
    (source target : CodeText) :
    (LinkRequest.remove source target).Outcome root place places s
      ((LinkRequest.remove source target).perform root (place :: places) s) := by
  have hperform : (LinkRequest.remove source target).perform root (place :: places) s
      = LinkReply.ofResult .removed (removeLink root (place :: places) source target s) := rfl
  rw [hperform]
  by_cases hmissing : source = "" ∨ target = ""
  · rw [removeLink_of_missingEnd hmissing]
    exact outcome_of_tree_eq rfl rfl
  -- Without both ends nothing is read; links that cannot be read, or that do not join the pair,
  -- leave the file as it is.
  cases hlinks : (SideFile.links s.tree root (place :: places)).outcome with
  | error failure =>
    obtain ⟨loaded, hload, htree⟩ := loadLinks_of_not_holds quiet hlinks
    rw [removeLink_of_filled hmissing, bind_of_error hload]
    exact outcome_of_tree_eq rfl htree
  | ok links =>
    obtain ⟨loaded, hload, hlater⟩ := loadLinks_of_holds hlinks
    rw [removeLink_of_filled hmissing, bind_of_ok hload]
    split
    · exact outcome_of_tree_eq rfl (hlater.tree_eq quiet)
    · have hlist : (LinkRequest.onList links (.remove source target)).2
          = links.filter fun link => !link.joins source target :=
        congrArg Prod.snd (if_neg hmissing)
      rw [← hlist]
      exact outcome_of_stored (.remove source target) LinkReply.removed true
        (fun path => s!"Removed manual link {source} -> {target} from {path}") hroot
        (hlater.isQuiet quiet) (hlater.tree_eq quiet) hlinks rfl

/-- A request either spares the files or writes the changed list to the primary one. -/
theorem perform_outcome (hroot : Path.isAbsolute root = true) (quiet : s.IsQuiet)
    (request : LinkRequest) :
    request.Outcome root place places s (request.perform root (place :: places) s) := by
  cases request with
  | add now known source target => exact add_outcome hroot quiet now known source target
  | remove source target => exact remove_outcome hroot quiet source target

/-- On the list that the entries make, a change has the effect that `edited` has on the entries. -/
theorem map_toJson_onList {request : LinkRequest} {entries : List Json}
    (hentries : ∀ link ∈ entries.filterMap linkOf?, link.IsJoined)
    (hchange : (request.onList (entries.filterMap linkOf?)).1.isChange = true) :
    ((request.onList (entries.filterMap linkOf?)).2.map Link.joined).map Link.toJson
      = request.edited entries := by
  -- A request that changes the list has passed all its tests.
  cases request with
  | add now known source target =>
    rw [LinkRequest.onList] at hchange ⊢
    split at hchange
    · cases hchange
    next hmissing =>
    split at hchange
    · cases hchange
    next hsame =>
    split at hchange
    · cases hchange
    next hunknown =>
    split at hchange
    · cases hchange
    rw [if_neg hmissing, if_neg hsame, if_neg hunknown]
    show ((entries.filterMap linkOf? ++ [_]).map Link.joined).map Link.toJson = _
    rw [List.map_append, map_joined_eq_self hentries, List.map_append, List.map_filterMap]
    rfl
  | remove source target =>
    rw [LinkRequest.onList] at hchange ⊢
    split at hchange
    · cases hchange
    next hmissing =>
    rw [if_neg hmissing, map_joined_eq_self fun link hlink =>
      hentries link (List.mem_filter.mp hlink).1]
    exact map_filter_links source target entries

/-- What stands in the primary file after a request. Suppose that the root is absolute and that
notices go to no file. If the request changes nothing, for whatever reason, a primary file that
could be read is octet by octet as it was. If it does, the file holds an array: of every entry that
names both its ends, in order, the ends and the date, less the pair that was removed, with the link
that was added at the end, with characters in place of pairs of halves. The entries are those of the
primary file if that held an array. Any other content counts as no entries; and if there is no
content, or none that can be read, the entries come from the files after it. -/
theorem edits_keep_links (hroot : Path.isAbsolute root = true) (quiet : s.IsQuiet)
    (request : LinkRequest) :
    let path := Path.below root place
    let done := request.perform root (place :: places) s
    (done.1.isChange = false → ∀ octets, s.tree.readOctets path = .ok octets →
      done.2.tree.readOctets path = .ok octets) ∧
    (done.1.isChange = true →
      (∃ entries, Gives s.tree root place places entries ∧
        read done.2.tree path = .ok (.content (.arr (request.edited entries)))) ∧
      ∀ entries, read s.tree path = .ok (.content (.arr entries)) →
        read done.2.tree path = .ok (.content (.arr (request.edited entries)))) ∧
    ∀ entry, (linkOf? entry).isSome = true →
      ∃ kept, remainder? entry = some kept ∧ IsRemainder entry kept := by
  intro path done
  have houtcome : request.Outcome root place places s done := perform_outcome hroot quiet request
  have hagrees : ∀ links, Holds root (place :: places) s links →
      done.1.isSystemFailure = true ∨ done.1 = (request.onList links).1 :=
    fun links hholds => (perform_agrees hroot quiet hholds request).imp_right (·.reply_eq)
  clear_value done
  refine ⟨?_, ?_, fun entry hentry => ?_⟩
  · intro hsame octets hoctets
    cases houtcome with
    | spared _ hextends => exact hextends.readOctets hoctets
    | rewritten hreply => exact absurd hsame (ne_false_of_eq_true hreply)
  · intro hchange
    cases houtcome with
    | spared hreply => exact absurd hchange (ne_true_of_eq_false hreply)
    | @rewritten reply later links _ hholds hnull hwritten =>
      obtain ⟨content, hfirst, hlinks⟩ := links_eq_ok_iff.mp hholds
      rw [linksOf_eq_filterMap] at hlinks
      subst hlinks
      -- A reply that tells of a change is no failure, so it is the reply that the list gives.
      have hreply : reply = (request.onList ((linkEntries content).filterMap linkOf?)).1 := by
        refine (hagrees _ hholds).resolve_left ?_
        cases reply <;> simp_all [LinkReply.isChange, LinkReply.isSystemFailure]
      have hread : read later.tree path
          = .ok (.content (.arr (request.edited (linkEntries content)))) := by
        rw [← map_toJson_onList (isJoined_of_links hholds) (hreply ▸ hchange)]
        exact read_of_written hnull hwritten
      refine ⟨⟨_, gives_of_first hfirst, hread⟩, fun entries hentries => ?_⟩
      have hcontent : linkEntries content = entries :=
        linkEntries_of_array hentries hfirst
      rw [← hcontent]
      exact hread
  · obtain ⟨link, hlink⟩ := Option.isSome_iff_exists.mp hentry
    have hkept : remainder? entry = some link.toJson := congrArg (Option.map Link.toJson) hlink
    exact ⟨_, hkept, isRemainder_of_remainder? hkept⟩

end Step

/-- A half that stands alone is kept: U+FFFD is another name, and a link of it is not removed. -/
example :
    let octets := "[\x7b\"source\": \"\\ud800\", \"target\": \"b\"\x7d]".toUTF8.toList
    let session : Session := {
      tree := {
        entries := [(["r"], .directory), (["r", "links.json"], .file octets)]
        distinct := show [["r"], ["r", "links.json"]].Nodup by decide }
      directory := "/"
      now := ⟨2024, 1, 1, 0, 0, 0, 0⟩ }
    let perform := LinkRequest.perform "/r" ["links.json"] session
    (perform (.remove "\uFFFD" "b")).1 = .removed false ∧
      Work.answer? (Work.loadLinks "/r" ["links.json"])
          (perform (.add ⟨2024, 1, 2, 0, 0, 0, 0⟩ ["a", "b"] "a" "b")).2
        = some [⟨⟨[.high 0]⟩, "b", ""⟩, ⟨"a", "b", "2024-01-02T00:00:00Z"⟩] := by
  decide +kernel

/-- A repository with one file. -/
def sessionWith (content : String) : Session where
  tree := {
    entries := [(["r"], .directory), (["r", "links.json"], .file (Utf8.encode content))]
    distinct := show [["r"], ["r", "links.json"]].Nodup by decide }
  directory := "/"
  now := ⟨2024, 1, 1, 0, 0, 0, 0⟩

/-- A links file in which a link has a note, with an entry that is no link. -/
def notedEntries : List Json :=
  [.obj [("source", .str "a"), ("target", .str "b"), ("note", .str "keep")], .bool true]

/-- Its text. -/
def notedLinks : String :=
  Json.write .compact (.arr notedEntries) ++ "\n"

/-- The links with a note are read as they are written. -/
theorem read_notedLinks :
    read (sessionWith notedLinks).tree "/r/links.json" = .ok (.content (.arr notedEntries)) := by
  have hfits : Json.Fits Json.maxDepth (.arr notedEntries) := by
    refine .arr ?_
    rw [notedEntries, List.forall_mem_cons, List.forall_mem_singleton]
    exact ⟨.obj (by decide) (by decide) (by simp [Json.Fits.str, CodeText.isJoined_ofString]),
      .bool _ true⟩
  have hwritten : (sessionWith notedLinks).tree.readOctets "/r/links.json"
      = .ok (Utf8.encode (Json.write .compact (.arr notedEntries) ++ "\n")) := by decide +kernel
  exact read_of_line hfits (by decide) hwritten

/-- A link to add to it. -/
def furtherLink : LinkRequest :=
  .add ⟨2024, 1, 2, 0, 0, 0, 0⟩ ["a", "b", "c"] "a" "c"

/-- What becomes of a links file when the link is added. -/
def furtherEdit (content : String) : LinkReply × Session :=
  furtherLink.perform "/r" ["links.json"] (sessionWith content)

/-- Of a link with a note, the link is kept. -/
theorem edit_keeps_noted_link :
    (furtherEdit notedLinks).1.isChange = true ∧
      read (furtherEdit notedLinks).2.tree "/r/links.json" = .ok (.content (.arr [
        .obj [("source", .str "a"), ("target", .str "b")],
        .obj [("source", .str "a"), ("target", .str "c"),
          ("createdAt", .str "2024-01-02T00:00:00Z")]])) := by
  have quiet : (sessionWith notedLinks).IsQuiet := fun _ h => nomatch h
  have hchange : (furtherEdit notedLinks).1.isChange = true := by decide +kernel
  have hplace : Path.below "/r" "links.json" = "/r/links.json" := by decide +kernel
  obtain ⟨-, hchanged, -⟩ := @edits_keep_links "/r" "links.json" [] (sessionWith notedLinks)
    (by decide) quiet furtherLink
  exact ⟨hchange, hplace ▸ (hchanged hchange).2 notedEntries (hplace.symm ▸ read_notedLinks)⟩

/-- Notes, entries that are no links, and files that are no JSON do not survive a change. -/
theorem edits_drop_what_is_no_link :
    ((furtherEdit notedLinks).1.isChange = true ∧
      read (sessionWith notedLinks).tree "/r/links.json" = .ok (.content (.arr notedEntries)) ∧
      ∃ kept, read (furtherEdit notedLinks).2.tree "/r/links.json" = .ok (.content (.arr kept)) ∧
        ∀ entry ∈ notedEntries, entry ∉ kept) ∧
    ((furtherEdit "not json").1.isChange = true ∧
      (Json.read "not json".toList).toOption.isNone = true ∧
      (furtherEdit "not json").2.tree.readOctets "/r/links.json"
        ≠ (sessionWith "not json").tree.readOctets "/r/links.json") := by
  refine ⟨⟨by decide +kernel, read_notedLinks, ?_⟩, by decide +kernel,
    by decide +kernel, by decide +kernel⟩
  have hwritten : (furtherEdit notedLinks).2.tree.readOctets "/r/links.json"
      = .ok (Utf8.encode (linksText
        [⟨"a", "b", ""⟩, ⟨"a", "c", "2024-01-02T00:00:00Z"⟩])) := by
    decide +kernel
  refine ⟨_, read_of_written (by decide) hwritten, ?_⟩
  simp [notedEntries, Link.toJson, Link.joined]

end RepoAtlas
