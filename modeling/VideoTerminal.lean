import VideoTerminal.LineDiscipline
import VideoTerminal.Main
import VideoTerminal.Manager
import VideoTerminal.Settings.Write
import VideoTerminal.Proofs.Numerals
import VideoTerminal.Proofs.RowShape
import VideoTerminal.Proofs.ScreenShape
import VideoTerminal.Proofs.TerminalShape
import VideoTerminal.Proofs.Machine
import VideoTerminal.Proofs.Pieces
import VideoTerminal.Proofs.Reachable
import VideoTerminal.Proofs.Characters
import VideoTerminal.Proofs.Lines
import VideoTerminal.Proofs.Canonical
import VideoTerminal.Proofs.CommandBody
import VideoTerminal.Proofs.RoundTrip
import VideoTerminal.Proofs.Reading
import VideoTerminal.Proofs.ControlSequences
import VideoTerminal.Proofs.Registers
import VideoTerminal.Proofs.Resynchronization
import VideoTerminal.Proofs.ShownScreen
import VideoTerminal.Proofs.Printing
import VideoTerminal.Proofs.Cursors
import VideoTerminal.Proofs.Hidden
import VideoTerminal.Proofs.Interruption
import VideoTerminal.Proofs.AlternateScreen
import VideoTerminal.Proofs.Interleaving
import VideoTerminal.Proofs.RowHalves
import VideoTerminal.Proofs.EveryRow
import VideoTerminal.Proofs.WideCharacters
import VideoTerminal.Proofs.RenditionText
import VideoTerminal.Proofs.Pens
import VideoTerminal.Proofs.StatusRequests
import VideoTerminal.Proofs.Renumbering
import VideoTerminal.Proofs.RelinkedTerminal
import VideoTerminal.Proofs.LinkTables
import VideoTerminal.Proofs.HeldLinks
import VideoTerminal.Proofs.OpenLinks
import VideoTerminal.Proofs.CellOrigins
import VideoTerminal.Proofs.Links
import VideoTerminal.Proofs.Frame
import VideoTerminal.Proofs.Titles
import VideoTerminal.Proofs.SessionCalls
import VideoTerminal.Proofs.Broadcasts
import VideoTerminal.Proofs.Checked
import VideoTerminal.Proofs.CheckedRows
import VideoTerminal.Proofs.CheckedColors
import VideoTerminal.Proofs.CheckedRendition
import VideoTerminal.Proofs.CheckedTerminal
import VideoTerminal.Proofs.CheckedMessages
import VideoTerminal.Proofs.CheckedDecoder
import VideoTerminal.Proofs.Faultless
import VideoTerminal.Proofs.Erasing
import VideoTerminal.Proofs.Replies
import VideoTerminal.Proofs.QuotedText
import VideoTerminal.Proofs.Documents
import VideoTerminal.Proofs.Tables
import VideoTerminal.Proofs.SettingsText
import VideoTerminal.Proofs.Scrolling
import VideoTerminal.Proofs.PinnedView
import VideoTerminal.Proofs.Margin
import VideoTerminal.Proofs.ScrollRegion
import VideoTerminal.Proofs.Marked
import VideoTerminal.Proofs.OriginMode
import VideoTerminal.Proofs.SavedCursors
import VideoTerminal.Proofs.Resizing
import VideoTerminal.Proofs.CombiningMarks
import VideoTerminal.Proofs.ColorForms
import VideoTerminal.Proofs.DeviceControlHeaders
import VideoTerminal.Proofs.CursorRow
import VideoTerminal.Proofs.ShiftedCells
import VideoTerminal.Proofs.ClipboardReplies
import VideoTerminal.Proofs.WrittenColors
import VideoTerminal.Proofs.PrivateModes
import VideoTerminal.Proofs.SavedModes
import VideoTerminal.Proofs.RestoringOrder
import VideoTerminal.Proofs.IndependentModes
import VideoTerminal.Proofs.ManagerCalls
import VideoTerminal.Proofs.Restarting
import VideoTerminal.Proofs.EmbeddedControls
import VideoTerminal.Proofs.ViewMotions
import VideoTerminal.Proofs.ArgumentGrammar
import VideoTerminal.Proofs.MalformedText
import VideoTerminal.Proofs.InterruptedStrings
import VideoTerminal.Proofs.RegisterBounds
import VideoTerminal.Proofs.Tabulation
