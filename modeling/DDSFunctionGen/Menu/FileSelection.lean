import DDSFunctionGen.Menu.ScrollBar
import DDSFunctionGen.Menu.SdPage

/-!
# The highlighted entry from redraw to redraw

The highlighted index is kept while every redraw counts the entries anew from
the card. Buttons and encoder keep it below the last count; a listing that has
become shorter, or a directory that no longer opens, leaves it behind the end.
-/

namespace DDSFunctionGen.Menu

open DDSFunctionGen.Firmware DDSFunctionGen.Lcd DDSFunctionGen.Player DDSFunctionGen.SdCard
  DDSFunctionGen.Semantics

namespace SdPage

/-- What `f_opendir` and `f_readdir` give one redraw: nothing, or the entries up to
the end of the directory or the first error. -/
abbrev Listing := Option (List FileInfo)

/-- The entries listed, none if the directory could not be opened. -/
def Listing.entryCount (listing : Listing) : Nat := (listing.getD []).length

/-- `drawFileNames` -/
def drawListing (listing : Listing) (page : SdPage) : SdPage :=
  match listing with
  | some entries => entries.foldl drawFileName { page with fileCount := 1 }
  | none => { page with fileCount := 1 }

/-- What happens while the page is shown, on a card that may change. -/
inductive ListingEvent where
  | display (button : UInt8)
  | encoder (button : UInt8) (encoder : Int8)
  | redraw (listing : Listing)
  | refill (volume : Volume) (refill : Refill)

/-- One event. -/
def listingStep (page : SdPage) : ListingEvent → SdPage
  | .display button => page.btnDisplay button
  | .encoder button encoder => page.btnEncoder button encoder
  | .redraw listing => page.mountRootDir.drawListing listing
  | .refill volume refill => { page with player := page.player.ramWavUpdate volume refill }

/-- An event on a card that stays as it is. -/
def onCard (card : Card) (page : SdPage) : Event → ListingEvent
  | .display button => .display button
  | .encoder button encoder => .encoder button encoder
  | .redraw => .redraw (card.listing page.mountRootDir.directory)
  | .refill refill => .refill card.volume refill

/-- The highlighted index is in the last listing. -/
def InListing (page : SdPage) : Prop := page.selectedFileIndex < page.fileCount

/-- The highlighted index is in the listing, the bar of `drawScrollbar` in its
frame, and every byte it stores in the screen buffer. -/
structure SelectionInside (page : SdPage) : Prop where
  selected : page.InListing
  top : 40 ≤ ScrollBar.srOffY page.selectedFileIndex page.fileCount
  bottom : ScrollBar.srOffY page.selectedFileIndex page.fileCount +
    ScrollBar.brHeight page.fileCount ≤ 40 + 78 + 1
  stores : ∀ screen : Screen, screen.faulted = false →
    (ScrollBar.drawScrollbar page.selectedFileIndex page.fileCount screen).faulted = false

/-- If the event is a redraw, it draws the selection inside the listing. -/
def DrawsInside (page : SdPage) : ListingEvent → Prop
  | .redraw listing => (page.listingStep (.redraw listing)).SelectionInside
  | _ => True

/-- A redraw that lists fewer entries than the one before still lists the
highlighted one. -/
def KeepsHighlighted (page : SdPage) : ListingEvent → Prop
  | .redraw listing =>
      listing.entryCount + 1 < page.fileCount → page.selectedFileIndex ≤ listing.entryCount
  | _ => True

/-- On a card that stays as it is, the page does what it does on that card. -/
theorem listingStep_onCard (card : Card) (page : SdPage) (event : Event) :
    page.listingStep (page.onCard card event) = page.step card event := by
  cases event with
  | display button => rfl
  | encoder button encoder => rfl
  | redraw => rfl
  | refill refill => rfl

theorem drawListing_counts (listing : Listing) (page : SdPage) :
    (page.drawListing listing).fileCount = listing.entryCount + 1 ∧
      (page.drawListing listing).selectedFileIndex = page.selectedFileIndex := by
  cases listing with
  | none => exact ⟨rfl, rfl⟩
  | some entries =>
      simp only [drawListing, foldl_drawFileName, Listing.entryCount, Option.getD_some]
      exact ⟨Nat.add_comm 1 _, trivial⟩

theorem mountRootDir_counts (page : SdPage) :
    page.mountRootDir.fileCount = page.fileCount ∧
      page.mountRootDir.selectedFileIndex = page.selectedFileIndex := by
  unfold mountRootDir
  split
  · exact ⟨rfl, rfl⟩
  · exact ⟨rfl, rfl⟩

/-- An index below the count is drawn inside. -/
theorem selectionInside_iff (page : SdPage) :
    page.SelectionInside ↔ page.InListing := by
  refine ⟨SelectionInside.selected, fun inListing => ⟨inListing, ?_, ?_, ?_⟩⟩
  · exact Nat.le_add_right _ _
  · exact ScrollBar.bar_inside inListing
  · exact fun screen sound => (ScrollBar.drawScrollbar_paints inListing screen sound).1

/-- A redraw leaves the highlighted index in the listing exactly if it keeps the
highlighted entry. -/
theorem redraw_inListing {page : SdPage} (inListing : page.InListing) (listing : Listing) :
    (page.listingStep (.redraw listing)).InListing ↔ page.KeepsHighlighted (.redraw listing) := by
  obtain ⟨count, index⟩ := drawListing_counts listing page.mountRootDir
  rw [InListing, listingStep, count, index, page.mountRootDir_counts.2, KeepsHighlighted]
  rw [InListing] at inListing
  omega

namespace InListing

variable {page : SdPage}

theorem processOkButton (inListing : page.InListing) : page.processOkButton.InListing := by
  unfold SdPage.processOkButton
  split
  · exact inListing
  split
  · exact Nat.zero_lt_of_lt inListing
  · exact inListing

theorem turn (inListing : page.InListing) (encoder : Int8) : (page.turn encoder).InListing := by
  unfold SdPage.turn
  dsimp only
  split
  · simp only [InListing]
    omega
  · exact inListing

theorem btnDisplay (inListing : page.InListing) (button : UInt8) :
    (page.btnDisplay button).InListing := by
  unfold SdPage.btnDisplay
  split
  · split
    · exact Nat.lt_of_le_of_lt (Nat.sub_le _ 1) inListing
    · exact inListing
  split
  · split
    · rename_i more
      exact Nat.add_lt_of_lt_sub more
    · exact inListing
  split
  · exact inListing
  split
  · exact inListing.processOkButton
  · exact inListing

/-- Only a redraw can leave the highlighted index behind the listing. -/
theorem step (inListing : page.InListing) {event : ListingEvent}
    (keeps : page.KeepsHighlighted event) : (page.listingStep event).InListing := by
  cases event with
  | display button => exact inListing.btnDisplay button
  | encoder button encoder =>
      unfold listingStep btnEncoder
      dsimp only
      split
      · exact (inListing.turn encoder).processOkButton
      · exact inListing.turn encoder
  | redraw listing => exact (redraw_inListing inListing listing).mpr keeps
  | refill volume refill => exact inListing

/-- A redraw draws inside exactly if it keeps the highlighted entry. -/
theorem drawsInside_iff (inListing : page.InListing) (event : ListingEvent) :
    page.DrawsInside event ↔ page.KeepsHighlighted event := by
  cases event with
  | redraw listing =>
      exact (selectionInside_iff _).trans (redraw_inListing inListing listing)
  | _ => exact Iff.rfl

end InListing

theorem powerUp_inListing (rams : LookupRams) : (powerUp rams).InListing := Nat.zero_lt_one

/-- Every redraw draws the selection inside the listing exactly if every one that
finds fewer entries still finds the highlighted one. -/
theorem selection_inside_iff (rams : LookupRams) (events : List ListingEvent) :
    Along listingStep DrawsInside (powerUp rams) events ↔
      Along listingStep KeepsHighlighted (powerUp rams) events :=
  along_iff_of_invariant (fun _ _ inListing keeps => InListing.step inListing keeps)
    (fun _ event inListing => inListing.drawsInside_iff event) (powerUp_inListing rams)

/-- The sixth entry is highlighted when the card is taken out: the next redraw
stores the bar behind the screen buffer. -/
theorem card_removal_draws_outside :
    ¬ ∀ (rams : LookupRams) (events : List ListingEvent),
      Along listingStep DrawsInside (powerUp rams) events := by
  intro claimed
  have along := claimed (fun _ _ => 0)
    ([.redraw (some (List.replicate 5 { fname := [0x41] })), .encoder 0 5] ++ [.redraw none])
  let blank : Screen := { scrbuf := Vector.replicate 2048 0 }
  have stored : (ScrollBar.drawScrollbar 5 1 blank).faulted = false := along.last.stores blank rfl
  have outside : (ScrollBar.drawScrollbar 5 1 blank).faulted = true :=
    ScrollBar.drawScrollbar_single_entry (by decide) (by decide) blank
  exact absurd (stored.symm.trans outside) (by decide)

end SdPage
end DDSFunctionGen.Menu
