import SamsungTVVoices.Lib.StepSystem
import SamsungTVVoices.Lib.Digits
import SamsungTVVoices.Lib.Stream
import SamsungTVVoices.Lib.FileTree
import SamsungTVVoices.Lib.Newc
import SamsungTVVoices.Protocol
import SamsungTVVoices.Guest.Channel
import SamsungTVVoices.Guest.Machine
import SamsungTVVoices.Host.Reader
import SamsungTVVoices.Store.Packs
import SamsungTVVoices.Store.Download
import SamsungTVVoices.Store.Newc
import SamsungTVVoices.Store.Runtime
import SamsungTVVoices.Store.Install
import SamsungTVVoices.Store.Consistency
import SamsungTVVoices.Store.Concurrent
import SamsungTVVoices.Guest.Cancel
import SamsungTVVoices.Driver.Machine
import SamsungTVVoices.Driver.Trace
import SamsungTVVoices.Driver.Line
import SamsungTVVoices.Driver.Track
import SamsungTVVoices.Driver.Order
import SamsungTVVoices.System.Machine
import SamsungTVVoices.Guest.Stage
import SamsungTVVoices.System.Delivery
import SamsungTVVoices.System.Once
import SamsungTVVoices.Driver.Cancel
import SamsungTVVoices.Store.Receive
import SamsungTVVoices.Panel.Machine
import SamsungTVVoices.Panel.Removal
import SamsungTVVoices.Updater.Download
import SamsungTVVoices.Updater.Timer
import SamsungTVVoices.Store.Interrupted
import SamsungTVVoices.Store.Whole
import SamsungTVVoices.Store.Leftovers
import SamsungTVVoices.Driver.Session
import SamsungTVVoices.Driver.Handover
import SamsungTVVoices.Guest.Jobs
import SamsungTVVoices.Guest.Reply
import SamsungTVVoices.Guest.Shutdown
import SamsungTVVoices.Guest.Engine
import SamsungTVVoices.Driver.Notices
import SamsungTVVoices.Guest.Chunks
import SamsungTVVoices.System.Frames
import SamsungTVVoices.Host.Send
import SamsungTVVoices.Lib.Path
import SamsungTVVoices.Store.Extract
import SamsungTVVoices.Store.Respelled
import SamsungTVVoices.Store.Voices
import SamsungTVVoices.Lib.Delimited
import SamsungTVVoices.Lib.Utf16
import SamsungTVVoices.Updater.Signature
import SamsungTVVoices.Extractor.Files
import SamsungTVVoices.Extractor.Links
import SamsungTVVoices.Extractor.Folders
import SamsungTVVoices.Extractor.Unpack
import SamsungTVVoices.Extractor.Filter
import SamsungTVVoices.Extractor.Whole
import SamsungTVVoices.Extractor.Bnode
import SamsungTVVoices.Extractor.Btree
import SamsungTVVoices.Extractor.Catalog
import SamsungTVVoices.Extractor.Overflow
import SamsungTVVoices.Store.Helper
import SamsungTVVoices.Store.ExtractInit
import SamsungTVVoices.Extractor.Crc32
import SamsungTVVoices.Extractor.Compress
import SamsungTVVoices.Lib.Reader
import SamsungTVVoices.Unixtract.Ouith
import SamsungTVVoices.Unixtract.Tree
import SamsungTVVoices.Unixtract.Msd11
import SamsungTVVoices.Unixtract.Container
import SamsungTVVoices.Extractor.Snapshot
import SamsungTVVoices.Lib.Replay
import SamsungTVVoices.Extractor.Bitmap
import SamsungTVVoices.Lib.Stretches
import SamsungTVVoices.Extractor.Space
import SamsungTVVoices.Extractor.Volume
