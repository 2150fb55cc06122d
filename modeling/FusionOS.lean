import FusionOS.Lib.Run
import FusionOS.Lib.Mem
import FusionOS.Lib.Tiling
import FusionOS.Lib.Buf
import FusionOS.Lib.Chain
import FusionOS.Lib.Scan
import FusionOS.Lib.WordSum
import FusionOS.Lib.Ring
import FusionOS.Lib.Bubble
import FusionOS.Lib.Align
import FusionOS.Lib.Split
import FusionOS.Kernel.Task
import FusionOS.Kernel.TaskStep
import FusionOS.Kernel.TaskTable
import FusionOS.Kernel.TaskPick
import FusionOS.Kernel.TaskSafety
import FusionOS.Kernel.TaskSleep
import FusionOS.Kernel.MemOps
import FusionOS.Kernel.MemMove
import FusionOS.Kernel.Memmap
import FusionOS.Kernel.PhysAlloc
import FusionOS.Kernel.Heap
import FusionOS.Kernel.HeapRefine
import FusionOS.Kernel.HeapRealloc
import FusionOS.Kernel.HeapRun
import FusionOS.Kernel.HeapSizes
import FusionOS.Kernel.HeapContents
import FusionOS.Kernel.HeapOrder
import FusionOS.Kernel.HeapCounters
import FusionOS.Kernel.HeapFit
import FusionOS.Net.Stack
import FusionOS.Net.FrameBounds
import FusionOS.Net.TcpSession
import FusionOS.Net.TcpReceive
import FusionOS.Net.TcpFin
import FusionOS.Net.TcpRetransmit
import FusionOS.Net.TcpAck
import FusionOS.Net.Checksum
import FusionOS.Net.OnesSum
import FusionOS.Net.ArpCache
import FusionOS.Net.DhcpOptions
import FusionOS.Net.Dhcp
import FusionOS.Net.DnsMessage
import FusionOS.Net.DnsQuery
import FusionOS.Fat.File
import FusionOS.Fat.Image
import FusionOS.Fat.Table
import FusionOS.Fat.Content
import FusionOS.Fat.Scan
import FusionOS.Fat.Slots
import FusionOS.Fat.Write
import FusionOS.Fat.Tree
import FusionOS.Fat.WellFormed
import FusionOS.Fat.ReadBack
import FusionOS.Fat.Mount
import FusionOS.Fat.NameBuf
import FusionOS.Fat.Listing
import FusionOS.Fat.Agree
import FusionOS.Fat.Erase
import FusionOS.Fat.EraseExact
import FusionOS.Fat.Frame
import FusionOS.Fat.FullDisk
import FusionOS.Fat.Attach
import FusionOS.Fat.Buffer
import FusionOS.Fat.LongName
import FusionOS.Fat.Grows
import FusionOS.Fat.NewFile
import FusionOS.Fat.View
import FusionOS.Fat.Keep
import FusionOS.Fat.FreshDir
import FusionOS.Fat.Calls
import FusionOS.Fat.Zones
import FusionOS.Fat.Confined
import FusionOS.Fat.Consistent
import FusionOS.Fat.Returns
import FusionOS.Fat.Moving
import FusionOS.Fat.Alloc
import FusionOS.Fat.ChainLength
import FusionOS.Fat.AppendSize
import FusionOS.Fat.ReadExact
import FusionOS.Fat.Release
import FusionOS.Fat.ShortNames
import FusionOS.Fat.ShortForm
import FusionOS.Fat.PathParts
import FusionOS.Fat.Sort
import FusionOS.Fat.Steady
import FusionOS.Drivers.Keyboard
import FusionOS.Drivers.Mouse
import FusionOS.Drivers.E1000
import FusionOS.Drivers.Virtio
import FusionOS.Apps.Browser
import FusionOS.Apps.Url
import FusionOS.Apps.Framing
import FusionOS.Apps.Download
import FusionOS.Apps.HtmlText
import FusionOS.Apps.ShellPath
import FusionOS.Apps.ShellCd
import FusionOS.Apps.ShellKeys
import FusionOS.Ui.Desktop
import FusionOS.Ui.Terminals
import FusionOS.Ui.TermBuffer
import FusionOS.Ui.TermBounds
import FusionOS.Ui.TermLines
import FusionOS.Ui.TermView
import FusionOS.Ui.Loop
import FusionOS.Ui.Focus
import FusionOS.Ui.Drag
import FusionOS.Ui.Stacking
import FusionOS.Ui.Cursor
