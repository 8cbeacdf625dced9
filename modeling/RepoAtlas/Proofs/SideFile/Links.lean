import RepoAtlas.Proofs.Json.Joined
import RepoAtlas.Proofs.Json.RoundTrip
import RepoAtlas.SideFile.Links

/-!
# `RepoAtlas.Proofs.SideFile.Links`: a written links file gives its links

Links are taken from the first place that says anything. What a links file is written with is an
array, and so says something even when it is empty: from then on no later place is looked at. The
array reads back, and it gives the links it was made of as long as these name both their ends; links
that were read from a file do. A pair of halves in a text comes back as the character of the pair;
links that were read hold no such pair, so they come back as they were.

* `Link.joined`: a link as it comes back.
* `ends_of_links`, `isJoined_of_links`: links that were read name both their ends and hold no pairs.
* `linksOf_listToJson`: links that name both their ends come back from their array.
* `linksText_joined`: links are written like the links that come back.
* `links_of_written`: once the first place holds the text of a links file, its links are the links.
-/

set_option autoImplicit false

namespace RepoAtlas

open RepoAtlas.Module RepoAtlas.Text

/-- A link with characters in place of pairs of halves. -/
def Module.Link.joined (link : Link) : Link where
  source := link.source.joined
  target := link.target.joined
  createdAt := link.createdAt.joined

/-- A link in whose texts no first half stands directly before a second half. -/
structure Module.Link.IsJoined (link : Link) : Prop where
  source : link.source.IsJoined
  target : link.target.IsJoined
  createdAt : link.createdAt.IsJoined

/-- A link is joined once it has been joined. -/
theorem Module.Link.isJoined_joined (link : Link) : link.joined.IsJoined :=
  ⟨CodeText.isJoined_joined _, CodeText.isJoined_joined _, CodeText.isJoined_joined _⟩

/-- A link without pairs is left as it is. -/
theorem Module.Link.joined_eq_self {link : Link} (h : link.IsJoined) : link.joined = link := by
  rw [joined, CodeText.joined_eq_self h.source, CodeText.joined_eq_self h.target,
    CodeText.joined_eq_self h.createdAt]

/-- Links without pairs are left as they are. -/
theorem Module.map_joined_eq_self {links : List Link} (h : ∀ link ∈ links, link.IsJoined) :
    links.map Link.joined = links :=
  (List.map_congr_left fun link hlink => Link.joined_eq_self (h link hlink)).trans (List.map_id _)

namespace SideFile

variable {tree : Tree} {root place : String} {places : List String} {links : List Link}

/-- A link that names both its ends. -/
def NamesEnds (link : Link) : Prop :=
  link.source ≠ "" ∧ link.target ≠ ""

/-- Joining halves leaves no end empty. -/
theorem NamesEnds.joined {link : Link} (h : NamesEnds link) : NamesEnds link.joined :=
  ⟨mt CodeText.joined_eq_empty_iff.mp h.1, mt CodeText.joined_eq_empty_iff.mp h.2⟩

/-! ### Texts of entries -/

/-- A filled text is a member that is a text with something in it. -/
theorem filledText?_eq_some_iff {entry : Json} {name text : CodeText} :
    filledText? entry name = some text ↔ entry.member? name = some (.str text) ∧ text ≠ "" := by
  unfold filledText? text?
  rw [Option.filter_eq_some_iff, decide_eq_true_eq]
  refine and_congr_left fun _ => ?_
  cases entry.member? name with
  | none => simp
  | some value => cases value <;> simp [Json.str?]

/-- A text of a value without pairs has none. -/
theorem isJoined_of_text? {entry : Json} (h : entry.IsJoined) {name text : CodeText}
    (htext : text? entry name = some text) : text.IsJoined := by
  obtain ⟨value, hmember, hvalue⟩ := Option.bind_eq_some_iff.mp htext
  -- A member is found in an object only, and is a text if it is a string.
  cases h with
  | obj hnames hmembers =>
    obtain ⟨before, after, hsplit, -⟩ := List.lookup_eq_some_iff.mp hmember
    have hjoined : value.IsJoined :=
      hmembers (name, value) (hsplit ▸ List.mem_append_right _ List.mem_cons_self)
    cases hjoined with
    | str hjoined =>
      cases hvalue
      exact hjoined
    | _ => cases hvalue
  | _ => cases hmember

/-! ### Links that are read -/

/-- An entry is a link if it has a source and a target, both with something in them. -/
theorem linkOf?_eq_some_iff {entry : Json} {link : Link} : linkOf? entry = some link ↔
    filledText? entry "source" = some link.source ∧ filledText? entry "target" = some link.target ∧
      (text? entry "createdAt").getD "" = link.createdAt := by
  unfold linkOf?
  cases filledText? entry "source" with
  | none => simp
  | some source =>
    cases filledText? entry "target" with
    | none => simp
    | some target =>
      simp only [Option.bind_eq_bind, Option.bind_some, Option.pure_def, Option.some.injEq]
      constructor
      · rintro rfl
        exact ⟨rfl, rfl, rfl⟩
      · rintro ⟨rfl, rfl, hdate⟩
        rw [hdate]

/-- A link that was read names both its ends. -/
theorem namesEnds_of_linkOf? {entry : Json} {link : Link} (h : linkOf? entry = some link) :
    NamesEnds link := by
  obtain ⟨hsource, htarget, -⟩ := linkOf?_eq_some_iff.mp h
  exact ⟨(filledText?_eq_some_iff.mp hsource).2, (filledText?_eq_some_iff.mp htarget).2⟩

/-- A link that was read from a value without pairs has none. -/
theorem isJoined_of_linkOf? {entry : Json} (hentry : entry.IsJoined) {link : Link}
    (h : linkOf? entry = some link) : link.IsJoined := by
  -- The ends and the time come out of the entry, whose texts are joined.
  obtain ⟨hsource, htarget, hdate⟩ := linkOf?_eq_some_iff.mp h
  refine ⟨isJoined_of_text? hentry (Option.filter_eq_some_iff.mp hsource).1,
    isJoined_of_text? hentry (Option.filter_eq_some_iff.mp htarget).1, ?_⟩
  rw [← hdate]
  cases hcreated : text? entry "createdAt" with
  | none => exact CodeText.isJoined_ofString ""
  | some date => exact isJoined_of_text? hentry hcreated

/-- Links are read if what side files say is, and they are what that makes. -/
theorem links_eq_ok_iff :
    (SideFile.links tree root places).outcome = .ok links ↔
      ∃ content, (first tree root places).outcome = .ok content ∧
        (content.map linksOf).getD [] = links := by
  unfold SideFile.links
  rw [Traced.outcome_bind_eq_ok_iff]
  constructor
  · rintro ⟨content, hcontent, hlinks⟩
    cases hlinks
    exact ⟨content, hcontent, rfl⟩
  · rintro ⟨content, hcontent, rfl⟩
    exact ⟨content, hcontent, rfl⟩

/-- Links that were read name both their ends. -/
theorem ends_of_links (h : (SideFile.links tree root places).outcome = .ok links) :
    ∀ link ∈ links, NamesEnds link := by
  obtain ⟨content, -, rfl⟩ := links_eq_ok_iff.mp h
  intro link hlink
  cases content with
  | none => exact absurd hlink List.not_mem_nil
  | some value =>
    cases value with
    | arr entries =>
      obtain ⟨entry, -, hentry⟩ := List.mem_filterMap.mp hlink
      exact namesEnds_of_linkOf? hentry
    | _ => exact absurd hlink List.not_mem_nil

/-- What a side file says has no pairs. -/
theorem isJoined_of_read {path : String} {value : Json}
    (h : read tree path = .ok (.content value)) : value.IsJoined := by
  unfold read at h
  split at h
  · cases h
  split at h
  · cases h
  · cases h
  · split at h
    · next hread =>
      cases h
      exact Json.isJoined_of_read hread
    all_goals cases h

/-- What the first of several side files says has no pairs. -/
theorem isJoined_of_first {value : Json}
    (h : (first tree root places).outcome = .ok (some value)) : value.IsJoined := by
  -- By induction on the places: the first content that counts was read, and what is read is joined.
  induction places with
  | nil => cases h
  | cons place rest ih =>
    rw [first, Traced.outcome_bind_eq_ok_iff] at h
    obtain ⟨reading, hreading, hnext⟩ := h
    simp only [Traced.ofExcept] at hreading
    cases reading with
    | missing => exact ih hnext
    | unreadable reason =>
      obtain ⟨-, -, hrest⟩ := Traced.outcome_bind_eq_ok_iff.mp hnext
      exact ih hrest
    | content content =>
      cases content with
      | null => exact ih hnext
      | _ =>
        cases hnext
        exact isJoined_of_read hreading

/-- Links that were read hold no pairs. -/
theorem isJoined_of_links (h : (SideFile.links tree root places).outcome = .ok links) :
    ∀ link ∈ links, link.IsJoined := by
  obtain ⟨content, hcontent, rfl⟩ := links_eq_ok_iff.mp h
  intro link hlink
  cases content with
  | none => exact absurd hlink List.not_mem_nil
  | some value =>
    cases isJoined_of_first hcontent with
    | arr hitems =>
      obtain ⟨entry, hentry, hlink⟩ := List.mem_filterMap.mp hlink
      exact isJoined_of_linkOf? (hitems entry hentry) hlink
    | _ => exact absurd hlink List.not_mem_nil

/-- Links are only read if the system takes the path of the first place. -/
theorem hasNull_of_links (h : (SideFile.links tree root (place :: places)).outcome = .ok links) :
    Path.hasNull (Path.below root place) = false := by
  obtain ⟨content, hcontent, -⟩ := links_eq_ok_iff.mp h
  rw [first, Traced.outcome_bind_eq_ok_iff] at hcontent
  obtain ⟨reading, hreading, -⟩ := hcontent
  cases hnull : Path.hasNull (Path.below root place) with
  | false => rfl
  | true =>
    simp only [Traced.ofExcept] at hreading
    rw [read, if_pos hnull] at hreading
    cases hreading

/-! ### Links that are written -/

/-- A link that names its ends is read back. -/
theorem linkOf?_toJson {link : Link} (h : NamesEnds link) : linkOf? link.toJson = some link := by
  have hfilled : ∀ {name text}, text? link.toJson name = some text → text ≠ "" →
      filledText? link.toJson name = some text := by
    intro name text htext hne
    rw [filledText?, htext, Option.filter_some, decide_eq_true hne, if_pos rfl]
  have hsource : filledText? link.toJson "source" = some link.source := hfilled rfl h.1
  have htarget : filledText? link.toJson "target" = some link.target := hfilled rfl h.2
  -- An empty time is not written, and a missing time is read as an empty one.
  have hdate : (text? link.toJson "createdAt").getD "" = link.createdAt := by
    unfold Link.toJson
    split
    · next hempty => exact hempty.symm
    · rfl
  rw [linkOf?, hsource, htarget]
  simp only [Option.bind_eq_bind, Option.bind_some, hdate]
  rfl

/-- Links that name both their ends come back from their array. -/
theorem linksOf_listToJson (h : ∀ link ∈ links, NamesEnds link) :
    linksOf (Link.listToJson links) = links := by
  induction links with
  | nil => rfl
  | cons link rest ih =>
    obtain ⟨hlink, hrest⟩ := List.forall_mem_cons.mp h
    show (link.toJson :: rest.map Link.toJson).filterMap linkOf? = link :: rest
    rw [List.filterMap_cons_some (linkOf?_toJson hlink)]
    exact congrArg (link :: ·) (ih hrest)

/-- Links are shallow values with different member names. -/
theorem fits_listToJson (h : ∀ link ∈ links, link.IsJoined) :
    Json.Fits Json.maxDepth (Link.listToJson links) := by
  refine Json.Fits.arr fun entry hentry => ?_
  obtain ⟨link, hlink, rfl⟩ := List.mem_map.mp hentry
  obtain ⟨hsource, htarget, hdate⟩ := h link hlink
  unfold Link.toJson
  refine Json.Fits.obj ?_ ?_ ?_
  · split <;> simp
  · intro member hmember
    have hname : ∃ name : String, member.1 = name := by
      split at hmember
      all_goals
        simp only [List.mem_cons, List.not_mem_nil, or_false] at hmember
      · rcases hmember with rfl | rfl <;> exact ⟨_, rfl⟩
      · rcases hmember with rfl | rfl | rfl <;> exact ⟨_, rfl⟩
    obtain ⟨name, hname⟩ := hname
    rw [hname]
    exact CodeText.isJoined_ofString name
  · intro member hmember
    -- With or without a date, all that a link holds is texts.
    have hstr : ∃ text : CodeText, member.2 = .str text ∧ text.IsJoined := by
      split at hmember
      all_goals
        simp only [List.mem_cons, List.not_mem_nil, or_false] at hmember
      · rcases hmember with rfl | rfl
        · exact ⟨_, rfl, hsource⟩
        · exact ⟨_, rfl, htarget⟩
      · rcases hmember with rfl | rfl | rfl
        · exact ⟨_, rfl, hsource⟩
        · exact ⟨_, rfl, htarget⟩
        · exact ⟨_, rfl, hdate⟩
    obtain ⟨text, htext, hjoined⟩ := hstr
    rw [htext]
    exact Json.Fits.str _ hjoined

/-- Links as they come back are values that the reader takes. -/
theorem fits_listToJson_joined (links : List Link) :
    Json.Fits Json.maxDepth (Link.listToJson (links.map Link.joined)) := by
  refine fits_listToJson fun link hlink => ?_
  obtain ⟨other, -, rfl⟩ := List.mem_map.mp hlink
  exact other.isJoined_joined

/-- A link is written like the link with characters in place of its pairs. -/
theorem writeAt_toJson_joined (style : Json.Style) (level : Nat) (link : Link) :
    Json.writeAt style level link.joined.toJson = Json.writeAt style level link.toJson := by
  unfold Link.toJson Link.joined
  by_cases hdate : link.createdAt = ("" : CodeText)
  · simp [hdate, Json.writeAt, Json.writeMembers, Json.writeString_joined]
  · simp [hdate, Json.writeAt, Json.writeMembers, Json.writeString_joined]

/-- Links are written like the links with characters in place of their pairs. -/
theorem linksText_joined (links : List Link) :
    linksText (links.map Link.joined) = linksText links := by
  have hitems : ∀ level, Json.writeItems .indented level ((links.map Link.joined).map Link.toJson)
      = Json.writeItems .indented level (links.map Link.toJson) := by
    intro level
    simp only [Json.writeItems_eq_map, List.map_map]
    exact List.map_congr_left fun link _ => writeAt_toJson_joined .indented level link
  unfold linksText Link.listToJson Json.write
  rw [Json.writeAt, Json.writeAt, hitems]

/-- A file that holds the text of a value reads as the value. -/
theorem read_of_line {value : Json} {style : Json.Style} (hfits : Json.Fits Json.maxDepth value)
    (hnull : Path.hasNull place = false)
    (hwritten : tree.readOctets place = .ok (Utf8.encode (Json.write style value ++ "\n"))) :
    read tree place = .ok (.content value) := by
  have htext := Tree.readText_of_plain (Json.isPlain_line hfits style) hwritten
  rw [read, if_neg (by rw [hnull]; exact Bool.false_ne_true), htext]
  simp only [Json.read_line hfits style]

/-- A file that holds the text of a links file reads as the array of the links. -/
theorem read_of_written (hnull : Path.hasNull place = false)
    (hwritten : tree.readOctets place = .ok (Utf8.encode (linksText links))) :
    read tree place = .ok (.content (Link.listToJson (links.map Link.joined))) := by
  rw [← linksText_joined] at hwritten
  exact read_of_line (fits_listToJson_joined links) hnull hwritten

/-- Once the first place holds the text of a links file, its links are the links. -/
theorem links_of_written (hends : ∀ link ∈ links, NamesEnds link)
    (hnull : Path.hasNull (Path.below root place) = false)
    (hwritten : tree.readOctets (Path.below root place) = .ok (Utf8.encode (linksText links))) :
    (SideFile.links tree root (place :: places)).outcome = .ok (links.map Link.joined) := by
  have hends' : ∀ link ∈ links.map Link.joined, NamesEnds link := by
    intro link hlink
    obtain ⟨other, hother, rfl⟩ := List.mem_map.mp hlink
    exact (hends other hother).joined
  rw [links_eq_ok_iff]
  refine ⟨some (Link.listToJson (links.map Link.joined)), ?_, linksOf_listToJson hends'⟩
  rw [first, Traced.outcome_bind_eq_ok_iff]
  exact ⟨_, read_of_written hnull hwritten, rfl⟩

end SideFile

end RepoAtlas
