import DrawingDiary.CommandLine.Given
import DrawingDiary.CommandLine.Perform
import DrawingDiary.CommandLine.Request
import DrawingDiary.Config.Basic
import DrawingDiary.Config.Error
import DrawingDiary.Config.Load
import DrawingDiary.Config.Schema
import DrawingDiary.Config.Sections
import DrawingDiary.Config.Stock
import DrawingDiary.Cooldown
import DrawingDiary.Day.Access
import DrawingDiary.Day.Basic
import DrawingDiary.Day.Images
import DrawingDiary.Day.Listing
import DrawingDiary.Day.Lookup
import DrawingDiary.Day.Notes
import DrawingDiary.Decimal.Nearest
import DrawingDiary.Decimal.Shortest
import DrawingDiary.Diary.Access
import DrawingDiary.Diary.Basic
import DrawingDiary.Diary.Schedule
import DrawingDiary.Diary.Shelf
import DrawingDiary.Disk.Changing
import DrawingDiary.Disk.Error
import DrawingDiary.Disk.Path
import DrawingDiary.Disk.Reading
import DrawingDiary.Disk.Resolve
import DrawingDiary.Disk.Tree
import DrawingDiary.Main
import DrawingDiary.Naming.Hour
import DrawingDiary.Naming.HourlyName
import DrawingDiary.Naming.Token
import DrawingDiary.Page.Cells
import DrawingDiary.Page.Render
import DrawingDiary.Page.Target
import DrawingDiary.Page.Template
import DrawingDiary.Page.Values
import DrawingDiary.Page.Window
import DrawingDiary.Picture.Basic
import DrawingDiary.Picture.Geometry
import DrawingDiary.Picture.Raster
import DrawingDiary.Picture.Resampling
import DrawingDiary.Picture.Strip
import DrawingDiary.Picture.Tile
import DrawingDiary.Png.Checksum
import DrawingDiary.Png.Chunk
import DrawingDiary.Png.Decode
import DrawingDiary.Png.Deflate
import DrawingDiary.Png.Encode
import DrawingDiary.Png.Huffman
import DrawingDiary.Png.Inflate
import DrawingDiary.Proofs.Config.Accepted
import DrawingDiary.Proofs.Config.Fields
import DrawingDiary.Proofs.Config.StockLayer
import DrawingDiary.Proofs.Day.Aborted
import DrawingDiary.Proofs.Day.Again
import DrawingDiary.Proofs.Day.Agreement
import DrawingDiary.Proofs.Day.Answers
import DrawingDiary.Proofs.Day.Calls
import DrawingDiary.Proofs.Day.Due
import DrawingDiary.Proofs.Day.First
import DrawingDiary.Proofs.Day.Gates
import DrawingDiary.Proofs.Day.Kinds
import DrawingDiary.Proofs.Day.Listing
import DrawingDiary.Proofs.Day.NewStart
import DrawingDiary.Proofs.Day.NoteLife
import DrawingDiary.Proofs.Day.Origin
import DrawingDiary.Proofs.Day.Reached
import DrawingDiary.Proofs.Day.Remembered
import DrawingDiary.Proofs.Day.Settle
import DrawingDiary.Proofs.Day.StripFile
import DrawingDiary.Proofs.Day.Unlisted
import DrawingDiary.Proofs.Day.Winners
import DrawingDiary.Proofs.Diary.Claims
import DrawingDiary.Proofs.Diary.History
import DrawingDiary.Proofs.Diary.Index
import DrawingDiary.Proofs.Diary.Lookup
import DrawingDiary.Proofs.Diary.Months
import DrawingDiary.Proofs.Diary.NewStrips
import DrawingDiary.Proofs.Diary.Refresh
import DrawingDiary.Proofs.Diary.Schedules
import DrawingDiary.Proofs.Diary.Strips
import DrawingDiary.Proofs.Diary.StripsMade
import DrawingDiary.Proofs.Diary.StripsOnce
import DrawingDiary.Proofs.Diary.Underway
import DrawingDiary.Proofs.Diary.Undisturbed
import DrawingDiary.Proofs.Disk.Added
import DrawingDiary.Proofs.Disk.Ancestors
import DrawingDiary.Proofs.Disk.Behind
import DrawingDiary.Proofs.Disk.Beside
import DrawingDiary.Proofs.Disk.Changes
import DrawingDiary.Proofs.Disk.Grown
import DrawingDiary.Proofs.Disk.Hosts
import DrawingDiary.Proofs.Disk.Join
import DrawingDiary.Proofs.Disk.Kept
import DrawingDiary.Proofs.Disk.NewFiles
import DrawingDiary.Proofs.Disk.Place
import DrawingDiary.Proofs.Disk.Renewed
import DrawingDiary.Proofs.Disk.Same
import DrawingDiary.Proofs.Disk.Standing
import DrawingDiary.Proofs.Disk.Walk
import DrawingDiary.Proofs.Naming.Date
import DrawingDiary.Proofs.Naming.DateNumber
import DrawingDiary.Proofs.Naming.Hour
import DrawingDiary.Proofs.Naming.HourlyName
import DrawingDiary.Proofs.Naming.Month
import DrawingDiary.Proofs.Page.Assemble
import DrawingDiary.Proofs.Page.DayBlocks
import DrawingDiary.Proofs.Page.Exact
import DrawingDiary.Proofs.Page.Expansion
import DrawingDiary.Proofs.Page.HourViews
import DrawingDiary.Proofs.Page.LiveLinks
import DrawingDiary.Proofs.Page.Markup
import DrawingDiary.Proofs.Page.Parity
import DrawingDiary.Proofs.Page.Placeholders
import DrawingDiary.Proofs.Page.Shown
import DrawingDiary.Proofs.Page.Template
import DrawingDiary.Proofs.Page.Totals
import DrawingDiary.Proofs.Page.Window
import DrawingDiary.Proofs.Picture.Raster
import DrawingDiary.Proofs.Picture.Strip
import DrawingDiary.Proofs.Picture.Tiles
import DrawingDiary.Proofs.Report.SiteSummary
import DrawingDiary.Proofs.Report.SummaryLines
import DrawingDiary.Proofs.Run
import DrawingDiary.Proofs.Site.Answered
import DrawingDiary.Proofs.Site.Contents
import DrawingDiary.Proofs.Site.Filling
import DrawingDiary.Proofs.Site.Finished
import DrawingDiary.Proofs.Site.Growth
import DrawingDiary.Proofs.Site.Inputs
import DrawingDiary.Proofs.Site.Links
import DrawingDiary.Proofs.Site.Navigation
import DrawingDiary.Proofs.Site.Outside
import DrawingDiary.Proofs.Site.Progress
import DrawingDiary.Proofs.Site.Written
import DrawingDiary.Proofs.Text.Attribute
import DrawingDiary.Proofs.Text.Bytes
import DrawingDiary.Proofs.Text.Entities
import DrawingDiary.Proofs.Text.Simultaneous
import DrawingDiary.Proofs.Toml.ByPath
import DrawingDiary.Proofs.Toml.InOrder
import DrawingDiary.Proofs.Toml.Parsed
import DrawingDiary.Reader
import DrawingDiary.Report.Listing
import DrawingDiary.Report.SiteSummary
import DrawingDiary.Run
import DrawingDiary.Site.Generate
import DrawingDiary.Site.Layout
import DrawingDiary.Text.Attribute
import DrawingDiary.Text.Digits
import DrawingDiary.Text.Lines
import DrawingDiary.Text.Quoted
import DrawingDiary.Text.Split
import DrawingDiary.Text.Substitution
import DrawingDiary.Text.Unseen
import DrawingDiary.Toml.DateTime
import DrawingDiary.Toml.Document
import DrawingDiary.Toml.Draft
import DrawingDiary.Toml.Merge
import DrawingDiary.Toml.Number
import DrawingDiary.Toml.Quoted
import DrawingDiary.Toml.Scan
import DrawingDiary.Toml.Value
