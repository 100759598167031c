import Y210.Lib.Run
import Y210.Lib.Trace
import Y210.Lib.History
import Y210.Lib.Indexed
import Y210.Lib.Slices
import Y210.Lib.Bytes
import Y210.Lib.Halfwords
import Y210.Lib.Text
import Y210.Lib.Scan
import Y210.Lib.Wire
import Y210.Lib.Calendar
import Y210.Lib.LinkedList
import Y210.Lib.Ring
import Y210.Lib.Circular
import Y210.Lib.Agenda
import Y210.Lib.Records
import Y210.Ril.Layout
import Y210.Ril.Translate
import Y210.Ril.CardStatus
import Y210.Ril.Libril
import Y210.Ril.DataCall
import Y210.Ril.Shim
import Y210.Ril.Builders
import Y210.Ril.Pending
import Y210.Ril.Lifetime
import Y210.Ril.Events
import Y210.Ril.EventLoop
import Y210.Ril.EventRun
import Y210.Ril.Frames
import Y210.Ril.Requests
import Y210.Ril.WakeLock
import Y210.Gps.Ni
import Y210.Gps.SyncCall
import Y210.Gps.SyncWait
import Y210.Gps.Engine
import Y210.Gps.EngineSteps
import Y210.Gps.EngineFrame
import Y210.Gps.Mailbox
import Y210.Gps.Aiding
import Y210.Gps.Worker
import Y210.Gps.Wakeup
import Y210.Gps.DeferredStop
import Y210.Gps.DataConn
import Y210.Gps.Session
import Y210.Gps.Civil
import Y210.Gps.CivilRange
import Y210.Gps.Nmea
import Y210.Gps.NmeaBounds
import Y210.Gps.NmeaSentences
import Y210.Gps.NmeaTurns
import Y210.Gps.NmeaDates
import Y210.Gps.Rollover
import Y210.Gps.RpcGlue
import Y210.Gps.SvReport
import Y210.Gps.Xtra
import Y210.Gralloc.Allocator
import Y210.Gralloc.Chunks
import Y210.Gralloc.Sound
import Y210.Gralloc.Heap
import Y210.Gralloc.AnyCalls
import Y210.Gralloc.Histories
import Y210.Gralloc.Pmem
import Y210.Gralloc.InitArea
import Y210.Gralloc.BufferLock
import Y210.Gralloc.MapFramebuffer
import Y210.Gralloc.Gpu
import Y210.Gralloc.BufferSize
import Y210.Gralloc.Slots
import Y210.Gralloc.Post
import Y210.Gralloc.PostFrames
import Y210.Audio.CloseInput
import Y210.Audio.Output
import Y210.Audio.Routing
import Y210.Audio.Input
import Y210.Audio.AacRead
import Y210.Audio.FilterFile
import Y210.Audio.FilterLoad
import Y210.Fm.Listener
import Y210.Copybit.Rects
import Y210.Copybit.Stretch
import Y210.Copybit.YuvRects
import Y210.Copybit.Batches
import Y210.Camera.Parameters
import Y210.Lights.Speaker
import Y210.Wifi.BoardData
import Y210.Wifi.Reorder
