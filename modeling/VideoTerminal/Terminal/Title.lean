import VideoTerminal.Terminal

/-!
# Titles and links
-/

namespace VideoTerminal.Terminal

/-! ## Titles -/

/-- The number of titles that can be put aside. -/
def titleDepth : Nat := 10

/-- Sets the title. -/
def setTitle (t : Terminal) (title : String) : Terminal := { t with title }

/-- Sets the icon name. -/
def setIconName (t : Terminal) (iconName : String) : Terminal := { t with iconName }

/-- Puts title and icon name aside; beyond the depth the oldest are lost. -/
def pushTitle (t : Terminal) : Terminal :=
  { t with titleStack := (t.title, t.iconName) :: t.titleStack.take (titleDepth - 1) }

/-- Takes back the title and icon name put aside last, if there are any. -/
def popTitle? (t : Terminal) : Option Terminal :=
  match t.titleStack with
  | (title, iconName) :: rest => some { t with title, iconName, titleStack := rest }
  | [] => none

/-! ## Links -/

/-- The numbers of links, with those that the cells of a row carry in front. -/
def addLinks (links : List Nat) (r : Row) : List Nat :=
  r.cells.foldl (fun links c => if c.link = 0 then links else c.link :: links) links

/-- The numbers of links, with those that a screen and its history carry in front. -/
def addLinksOf (links : List Nat) (s : Screen) : List Nat :=
  s.history.toList.foldl addLinks (s.grid.foldl addLinks links)

/-- The numbers of all links that cells carry, on either screen and in its history. -/
def carriedLinks (t : Terminal) : List Nat := addLinksOf (addLinksOf [] t.alternate) t.primary

/-- The numbers of all links in use: carried or open. -/
def usedLinks (t : Terminal) : List Nat := t.openLink :: t.carriedLinks

/-- Links what is printed from now on.  When the table is full, links no longer in use are dropped
first. -/
def openHyperlink (t : Terminal) (id target : String) : Terminal :=
  match t.links.number? id target with
  | some number => { t with openLink := number }
  | none =>
      let links :=
        if LinkTable.limit ≤ t.links.size then t.links.retain t.usedLinks else t.links
      let links := links.insert id target
      { t with links, openLink := links.last }

/-- Ends the open link. -/
def closeHyperlink (t : Terminal) : Terminal := { t with openLink := 0 }

end VideoTerminal.Terminal
